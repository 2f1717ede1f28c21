import Syndication.Proofs.Program.Operations
import Syndication.Proofs.Store.Loading
/-!
# Subscribing to one address

Alone with a store whose instants lie in the years 0 to 9999, at a time in these years, a user who
subscribes to an address gets the subscription, or is told of holding the feed already
(`Store.ensures_subscribe`). `Store.subscribed` is the store afterwards.
-/

namespace Syndication

/-- The row that a planned subscription becomes. -/
def Planned.row (p : Planned) (id : Int) (stamp : String) : SubscriptionRow :=
  ⟨id, p.user, p.feedId, p.status.name, p.url, none, 0, stamp, stamp⟩

namespace Store

variable {s : Store} {user : Int} {url stamp : String}

/-! ## What an address leads to -/

/-- The feed that an address is known to lead to. -/
def feedOf? (s : Store) (url : String) : Option Int :=
  (s.mapping? url).bind fun m => (s.feedAt? m.target).map (·.id)

/-- The store after a user has subscribed to an address. -/
def subscribed (user : Int) (stamp : String) (s : Store) (url : String) : Store :=
  match s.feedOf? url with
  | some f =>
    if (s.holder? user f).isSome then s else s.addSubscription (.bound user f url) stamp
  | none => s.addSubscription (.pending user url) stamp

theorem exists_of_feedOf? {f : Int} (h : s.feedOf? url = some f) :
    ∃ row ∈ s.feeds, row.id = f := by
  obtain ⟨m, -, hf⟩ := Option.bind_eq_some_iff.1 h
  obtain ⟨row, hrow, rfl⟩ := Option.map_eq_some_iff.1 hf
  exact ⟨row, (mem_of_feedAt? hrow).1, rfl⟩

/-- A user has a subscription to a feed. -/
def Holds (s : Store) (user f : Int) : Prop :=
  ∃ r ∈ s.subscriptions, r.user = user ∧ r.feedId = some f

theorem isSome_holder? {f : Int} : (s.holder? user f).isSome ↔ s.Holds user f := by
  simp [holder?, Holds]

/-- Who holds a feed holds it once. -/
theorem Valid.existsUnique_of_holds (h : s.Valid) {f : Int} (hf : s.Holds user f) :
    ∃! r, r ∈ s.subscriptions ∧ r.user = user ∧ r.feedId = some f := by
  obtain ⟨r, hr, huser, hfeed⟩ := hf
  refine ⟨r, ⟨hr, huser, hfeed⟩, ?_⟩
  rintro r' ⟨hr', huser', hfeed'⟩
  exact h.holders r' hr' r hr f (huser'.trans huser.symm) hfeed' hfeed

/-- A user's subscriptions to feeds, in the order of the feeds' ids. -/
def heldRows (s : Store) (user : Int) (feeds : List Int) : List SubscriptionRow :=
  (s.subscriptions.filter fun r => r.user = user && r.feedId.any fun f => f ∈ feeds).mergeSort
    fun a b => a.feedId.getD 0 ≤ b.feedId.getD 0

theorem runSubscriptionsTo_eq (s : Store) (user : Int) (feeds : List Int) :
    Call.runSubscriptionsTo user feeds s = (s.heldRows user feeds).map s.withFeed := rfl

theorem mem_heldRows {feeds : List Int} {r : SubscriptionRow} :
    r ∈ s.heldRows user feeds ↔ r ∈ s.subscriptions ∧ r.user = user ∧
      ∃ f ∈ feeds, r.feedId = some f := by
  simp only [heldRows, List.mem_mergeSort, List.mem_filter, Bool.and_eq_true, decide_eq_true_eq,
    Option.any_eq_true]
  constructor
  · rintro ⟨hr, huser, f, hf, hmem⟩
    exact ⟨hr, huser, f, by simpa using hmem, hf⟩
  · rintro ⟨hr, huser, f, hmem, hf⟩
    exact ⟨hr, huser, f, hf, by simpa using hmem⟩

theorem Valid.nodup_heldRows (h : s.Valid) (user : Int) (feeds : List Int) :
    ((s.heldRows user feeds).map (·.id)).Nodup := by
  have hperm := List.mergeSort_perm (s.subscriptions.filter fun r =>
    r.user = user && r.feedId.any fun f => f ∈ feeds) fun a b => a.feedId.getD 0 ≤ b.feedId.getD 0
  exact ((hperm.map (·.id)).nodup_iff).2 (h.subscriptionIds.sublist (List.filter_sublist.map _))

theorem heldRows_eq_nil {f : Int} : s.heldRows user [f] = [] ↔ s.holder? user f = none := by
  rw [List.eq_nil_iff_forall_not_mem, holder?, List.find?_eq_none]
  refine forall_congr' fun r => ?_
  rw [mem_heldRows]
  simp

/-! ## The store afterwards -/

namespace Valid

/-- The subscriptions to feeds load. -/
theorem subscriptionsTo_load (h : s.Valid) (hy : s.InYears) (user : Int) (feeds : List Int) :
    ∃ held, (Call.runSubscriptionsTo user feeds s).mapM (SubscriptionRow.load false) =
      .ok held := by
  rw [runSubscriptionsTo_eq]
  exact h.subscriptions_load hy false fun r hr => (mem_heldRows.1 hr).1

theorem subscribed (h : s.Valid) (user : Int) (hstamp : Stamp.IsWritten stamp) (url : String) :
    (s.subscribed user stamp url).Valid := by
  unfold Store.subscribed
  split
  · next f hf =>
    split
    · exact h
    · next hfree =>
      refine h.addSubscription hstamp (fun hnone => by cases hnone) fun f' hf' => ?_
      obtain rfl : f = f' := Option.some.inj hf'
      exact ⟨exists_of_feedOf? hf, Option.not_isSome_iff_eq_none.1 hfree⟩
  · exact h.addSubscription hstamp (fun _ => rfl) fun f hf => by cases hf

end Valid

theorem InYears.addSubscription (hy : s.InYears) {now : Instant} (hnow : now.InYears)
    (p : Planned) : (s.addSubscription p now.stamp).InYears := by
  intro t ht
  rcases mem_stamps.1 ht with hfeed | hsnapshot | hmapping | ⟨r, hr, ht⟩
  · exact hy t (mem_stamps.2 (.inl hfeed))
  · exact hy t (mem_stamps.2 (.inr (.inl hsnapshot)))
  · exact hy t (mem_stamps.2 (.inr (.inr (.inl hmapping))))
  · rcases List.mem_append.1 hr with hr | hr
    · exact hy t (mem_stamps.2 (.inr (.inr (.inr ⟨r, hr, ht⟩))))
    · obtain rfl := List.mem_singleton.1 hr
      have hstamp : t.stamp = now.stamp := by simpa [SubscriptionRow.stamps] using ht
      have hday : t.truncate.day = now.truncate.day :=
        congrArg Instant.day (Instant.truncate_eq_of_stamp_eq hstamp)
      change t.day = now.day at hday
      unfold Instant.InYears Instant.date at hnow ⊢
      rwa [hday]

theorem InYears.subscribed (hy : s.InYears) {now : Instant} (hnow : now.InYears) (user : Int)
    (url : String) : (s.subscribed user now.stamp url).InYears := by
  unfold Store.subscribed
  split
  · split
    · exact hy
    · exact hy.addSubscription hnow _
  · exact hy.addSubscription hnow _

/-! ## The operation -/

open Operation

/-- A row that can be inserted is inserted, and can be read. -/
theorem ensures_subscribeAs {clock : Nat → Instant} {p : Planned} (huser : p.user = user)
    (h : (s.addSubscription p (clock 0).stamp).Valid)
    (hy : (s.addSubscription p (clock 0).stamp).InYears)
    (hinsert : insertRow (clock 0).stamp s p =
      some (.new (s.lastSubscriptionId + 1), s.addSubscription p (clock 0).stamp)) :
    (subscribeAs user p).Ensures .timed (fun _ _ => True)
      (fun x r => x.1 = s.addSubscription p (clock 0).stamp ∧ ∃ a, r = .ok a ∧
        SubscriptionRow.Loads false
          (x.1.withFeed (p.row (s.lastSubscriptionId + 1) (clock 0).stamp)) a) (s, clock) := by
  unfold subscribeAs
  rw [ensures_bind, ensures_now]
  rintro _ _ ⟨rfl, rfl⟩
  rw [continues_ok, Instant.stamp_truncate, ensures_bind]
  refine ensures_call.2 ⟨True.intro, fun outcome y hcall => ?_⟩
  have hrun : Call.runInsertRow p (clock 0).stamp s =
      (some (.new (s.lastSubscriptionId + 1)), s.addSubscription p (clock 0).stamp) := by
    rw [Call.runInsertRow, hinsert]
  obtain rfl := (congrArg Prod.fst hrun).symm.trans hcall.1
  have hy₁ : s.addSubscription p (clock 0).stamp = y.1 :=
    (congrArg Prod.snd hrun).symm.trans (congrArg Prod.fst hcall.2)
  rw [hy₁] at h hy
  rw [continues_ok]
  have hrow : p.row (s.lastSubscriptionId + 1) (clock 0).stamp ∈ y.1.subscriptions :=
    hy₁ ▸ List.mem_append_right _ List.mem_cons_self
  obtain ⟨a, ha⟩ := h.subscription_loads hy false hrow
  obtain rfl := huser
  exact ensures_getSubscription (r := p.row (s.lastSubscriptionId + 1) (clock 0).stamp)
    (h.subscription?_eq_some.2 ⟨hrow, rfl⟩) ⟨hy₁.symm, a, ha, SubscriptionRow.load_eq_ok.1 ha⟩

/-- What subscribing to an address promises: the store afterwards, a failure just if the user holds
the feed, and else the new subscription. -/
structure SubscribeEnds (user : Int) (now : Instant) (url : String) (s s' : Store)
    (r : Except StoreError Subscription) : Prop where
  store : s' = s.subscribed user now.stamp url
  error : ∀ e, r = .error e ↔ ∃ f, s.feedOf? url = some f ∧ (s.holder? user f).isSome ∧
    e = .duplicateSubscription user f
  ok : ∀ a, r = .ok a → ∃ row, s'.subscriptions = s.subscriptions ++ [row] ∧
    SubscriptionRow.Loads false (s'.withFeed row) a

theorem ensures_subscribeTo (h : s.Valid) (hy : s.InYears) {clock : Nat → Instant}
    (hnow : (clock 0).InYears) (feed : Option Feed) (hfeed : feed.map (·.id) = s.feedOf? url) :
    (subscribeTo url user feed).Ensures .timed (fun _ _ => True)
      (fun x r => SubscribeEnds user (clock 0) url s x.1 r) (s, clock) := by
  have hvalid := h.subscribed user (Stamp.isWritten_stamp (clock 0)) url
  have hyears := hy.subscribed hnow user url
  cases feed with
  | none =>
    have hleft : s.subscribed user (clock 0).stamp url =
        s.addSubscription (.pending user url) (clock 0).stamp := by
      rw [subscribed, ← hfeed]
      rfl
    rw [hleft] at hvalid hyears
    refine (ensures_subscribeAs rfl hvalid hyears rfl).mono (fun _ _ h => h) ?_
    rintro ⟨_, _⟩ _ ⟨rfl, a, rfl, ha⟩
    exact ⟨hleft.symm, fun e => by simp [← hfeed], fun b hb => ⟨_, rfl, Except.ok.inj hb ▸ ha⟩⟩
  | some feed =>
    have hleft : s.subscribed user (clock 0).stamp url =
        if (s.holder? user feed.id).isSome then s
        else s.addSubscription (.bound user feed.id url) (clock 0).stamp := by
      rw [subscribed, ← hfeed]
      rfl
    refine ensures_bind.2 (ensures_call.2 ⟨True.intro, ?_⟩)
    rintro rows _ ⟨hrows, rfl⟩
    obtain rfl : Call.runSubscriptionsTo user [feed.id] s = rows := hrows
    obtain ⟨held, hload⟩ := h.subscriptionsTo_load hy user [feed.id]
    have hempty : held.isEmpty = true ↔ s.holder? user feed.id = none := by
      rw [← heldRows_eq_nil, List.isEmpty_iff, ← List.length_eq_zero_iff,
        ← (mapM_eq_ok.1 hload).length_eq, List.length_eq_zero_iff, runSubscriptionsTo_eq,
        List.map_eq_nil_iff]
    refine ensures_bind.2 (ensures_loaded.2 ?_)
    rw [hload, continues_ok]
    split
    · next hfree =>
      have hfree := hempty.1 hfree
      rw [hfree, if_neg (by simp)] at hleft
      rw [hleft] at hvalid hyears
      obtain ⟨row, hrow, hid⟩ := exists_of_feedOf? hfeed.symm
      have hinsert : insertRow (clock 0).stamp s (.bound user feed.id url) =
          some (.new (s.lastSubscriptionId + 1), s.addSubscription (.bound user feed.id url)
            (clock 0).stamp) := by
        simp [insertRow, Planned.bound, hfree, h.feed?_eq_some.2 ⟨hrow, hid⟩]
      refine (ensures_subscribeAs rfl hvalid hyears hinsert).mono (fun _ _ h => h) ?_
      rintro ⟨_, _⟩ _ ⟨rfl, a, rfl, ha⟩
      refine ⟨hleft.symm, fun e => ?_, fun b hb => ⟨_, rfl, Except.ok.inj hb ▸ ha⟩⟩
      simp [← hfeed, hfree]
    · next hheld =>
      have hsome := Option.isSome_iff_ne_none.2 fun hnone => hheld (hempty.2 hnone)
      rw [if_pos hsome] at hleft
      refine ensures_throw.2 ⟨hleft.symm, fun e => ⟨fun he => ?_, ?_⟩, fun a ha => by cases ha⟩
      · exact ⟨feed.id, hfeed.symm, hsome, (Except.error.inj he).symm⟩
      · rintro ⟨f, hf, -, rfl⟩
        obtain rfl := Option.some.inj (hfeed.trans hf)
        rfl

/-- **Subscribing to one address** adds a subscription, unless the user is told to hold the feed the
address leads to. -/
theorem ensures_subscribe (h : s.Valid) (hy : s.InYears) {clock : Nat → Instant}
    (hnow : (clock 0).InYears) (url : String) (user : Int) :
    (subscribe url user).Ensures .timed (fun _ _ => True)
      (fun x r => SubscribeEnds user (clock 0) url s x.1 r) (s, clock) := by
  rw [subscribe_eq, ensures_bind]
  refine ensures_call.2 ⟨True.intro, ?_⟩
  rintro target _ ⟨htarget, rfl⟩
  obtain rfl : (s.mapping? url).map (·.target) = target := htarget
  rw [continues_ok]
  cases hm : s.mapping? url with
  | none => exact ensures_subscribeTo h hy hnow none (by simp [feedOf?, hm])
  | some m =>
    rw [Option.map_some]
    refine ensures_bind.2 (ensures_findFeedAt.2 ⟨True.intro, ?_⟩)
    rintro row _ ⟨hfound, rfl⟩
    obtain rfl : s.feedAt? m.target = row := hfound
    cases hrow : s.feedAt? m.target with
    | none => exact ensures_subscribeTo h hy hnow none (by simp [feedOf?, hm, hrow])
    | some row =>
      obtain ⟨feed, hload⟩ := h.feed_loads hy false (mem_of_feedAt? hrow).1
      rw [Option.elim_some, hload]
      refine ensures_subscribeTo h hy hnow (some feed) ?_
      simp [feedOf?, hm, hrow, (FeedRow.load_eq_ok.1 hload).id]

theorem subscribeEnds_runOn (h : s.Valid) (hy : s.InYears) (clock : Nat → Instant)
    (hnow : (clock 0).InYears) (url : String) (user : Int) :
    SubscribeEnds user (clock 0) url s ((subscribe url user).runOn clock s).2
      ((subscribe url user).runOn clock s).1 :=
  @Ensures.runOn_timed _ _ (SubscribeEnds user (clock 0) url s) _ _ _
    (ensures_subscribe h hy hnow url user)

/-! ## One after another -/

/-- Subscribes a user to addresses one after another while the clock stands still. That the user
holds a feed already is no failure. -/
def subscribeEach (now : Instant) (user : Int) : List String → Store → Except StoreError Store
  | [], s => .ok s
  | url :: urls, s =>
    match (subscribe url user).runAt now s with
    | (.ok _, s) => subscribeEach now user urls s
    | (.error (.duplicateSubscription _ _), s) => subscribeEach now user urls s
    | (.error e, _) => .error e

theorem Valid.foldl_subscribed (h : s.Valid) (user : Int) (hstamp : Stamp.IsWritten stamp)
    (urls : List String) : (urls.foldl (Store.subscribed user stamp) s).Valid := by
  induction urls generalizing s with
  | nil => exact h
  | cons url urls ih => exact ih (h.subscribed user hstamp url)

theorem subscribeEach_eq (h : s.Valid) (hy : s.InYears) {now : Instant} (hnow : now.InYears)
    (user : Int) (urls : List String) :
    subscribeEach now user urls s = .ok (urls.foldl (subscribed user now.stamp) s) := by
  induction urls generalizing s with
  | nil => rfl
  | cons url urls ih =>
    have hrest :=
      ih (h.subscribed user (Stamp.isWritten_stamp now) url) (hy.subscribed hnow user url)
    obtain ⟨hleft, hfails, -⟩ := subscribeEnds_runOn h hy (fun _ => now) hnow url user
    rw [List.foldl_cons, ← hrest, ← hleft, subscribeEach, runAt_eq_runOn]
    generalize (subscribe url user).runOn (fun _ => now) s = result at hfails ⊢
    obtain ⟨r, s'⟩ := result
    cases r with
    | ok a => rfl
    | error e =>
      obtain ⟨f, -, -, rfl⟩ := (hfails e).1 rfl
      rfl

end Store

end Syndication
