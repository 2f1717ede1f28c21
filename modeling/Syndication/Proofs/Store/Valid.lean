import Syndication.Proofs.Store.Rows
import Syndication.Proofs.Time.Stamp
import Syndication.Store.Call
/-!
# Valid stores

`Store.Valid` is what every reachable store satisfies: ids and canonical addresses are distinct, no
user holds a feed twice, every feed that is named exists, what is not bound is pending, and every
timestamp column holds a stamp. A call with proper arguments (`Call.Proper`) that binds to no feed
but one that exists keeps it (`valid_run`).
-/

namespace Syndication

/-! ## Timestamp columns -/

/-- The timestamp columns of a feed. -/
def FeedRow.stamps (r : FeedRow) : List String :=
  r.createdAt :: r.updatedAt :: (r.checkedAt.toList ++ r.syncedAt.toList)

/-- The timestamp columns of a subscription. -/
def SubscriptionRow.stamps (r : SubscriptionRow) : List String := [r.createdAt, r.updatedAt]

namespace Store

/-- Every timestamp column of a store. -/
def stamps (s : Store) : List String :=
  s.feeds.flatMap FeedRow.stamps ++ s.snapshots.map (·.createdAt) ++
    s.mappings.map (·.createdAt) ++ s.subscriptions.flatMap SubscriptionRow.stamps

/-- Every instant that a store holds lies in the years 0 to 9999. -/
def InYears (s : Store) : Prop := ∀ t : Instant, t.stamp ∈ s.stamps → t.InYears

theorem mem_stamps {s : Store} {text : String} :
    text ∈ s.stamps ↔ (∃ r ∈ s.feeds, text ∈ r.stamps) ∨ (∃ r ∈ s.snapshots, r.createdAt = text) ∨
      (∃ r ∈ s.mappings, r.createdAt = text) ∨ ∃ r ∈ s.subscriptions, text ∈ r.stamps := by
  simp [stamps]

/-! ## The invariant -/

/-- What every reachable store satisfies. -/
structure Valid (s : Store) : Prop where
  feedIds : (s.feeds.map (·.id)).Nodup
  feedUrls : (s.feeds.map (·.url)).Nodup
  mappingIds : (s.mappings.map (·.id)).Nodup
  subscriptionIds : (s.subscriptions.map (·.id)).Nodup
  /-- Ids of subscriptions have been counted. -/
  id_le : ∀ r ∈ s.subscriptions, r.id ≤ s.lastSubscriptionId
  /-- No user holds a feed twice. -/
  holders : ∀ r ∈ s.subscriptions, ∀ r' ∈ s.subscriptions, ∀ f,
    r.user = r'.user → r.feedId = some f → r'.feedId = some f → r = r'
  subscriptionFeed : ∀ r ∈ s.subscriptions, ∀ f, r.feedId = some f → ∃ row ∈ s.feeds, row.id = f
  snapshotFeed : ∀ r ∈ s.snapshots, ∃ row ∈ s.feeds, row.id = r.feedId
  pending : ∀ r ∈ s.subscriptions, r.feedId = none → r.status = Status.pending.name
  subscriptionStatus : ∀ r ∈ s.subscriptions, ∃ status : Status, r.status = status.name
  feedStatus : ∀ r ∈ s.feeds, ∃ status : Status, r.status = status.name
  feedStamps : ∀ r ∈ s.feeds, ∀ text ∈ r.stamps, Stamp.IsWritten text
  snapshotStamps : ∀ r ∈ s.snapshots, Stamp.IsWritten r.createdAt
  mappingStamps : ∀ r ∈ s.mappings, Stamp.IsWritten r.createdAt
  subscriptionStamps : ∀ r ∈ s.subscriptions, ∀ text ∈ r.stamps, Stamp.IsWritten text

theorem valid_empty : empty.Valid := by
  constructor <;> simp [empty]

namespace Valid

variable {s : Store}

theorem eq_of_id (h : s.Valid) {r r' : SubscriptionRow} (hr : r ∈ s.subscriptions)
    (hr' : r' ∈ s.subscriptions) (hid : r.id = r'.id) : r = r' :=
  List.inj_on_of_nodup_map h.subscriptionIds hr hr' hid

theorem feed_eq_of_id (h : s.Valid) {r r' : FeedRow} (hr : r ∈ s.feeds) (hr' : r' ∈ s.feeds)
    (hid : r.id = r'.id) : r = r' :=
  List.inj_on_of_nodup_map h.feedIds hr hr' hid

theorem feed?_eq_some (h : s.Valid) {id : Int} {row : FeedRow} :
    s.feed? id = some row ↔ row ∈ s.feeds ∧ row.id = id :=
  find?_key_eq_some h.feedIds

theorem feedAt?_eq_some (h : s.Valid) {url : String} {row : FeedRow} :
    s.feedAt? url = some row ↔ row ∈ s.feeds ∧ row.url = url :=
  find?_key_eq_some h.feedUrls

theorem subscription?_eq_some (h : s.Valid) {id : Int} {row : SubscriptionRow} :
    s.subscription? id = some row ↔ row ∈ s.subscriptions ∧ row.id = id :=
  find?_key_eq_some h.subscriptionIds

theorem nodup_visible (h : s.Valid) (user : Int) (showPending : Bool) :
    ((s.visible user showPending).map (·.id)).Nodup := by
  have hperm := List.mergeSort_perm (s.subscriptions.filter fun r =>
    r.user = user && (showPending || r.status ≠ Status.pending.name)) clockOrder
  exact ((hperm.map (·.id)).nodup_iff).2 (h.subscriptionIds.sublist (List.filter_sublist.map _))

theorem written_updatedAt (h : s.Valid) {r : SubscriptionRow} (hr : r ∈ s.subscriptions) :
    Stamp.IsWritten r.updatedAt :=
  h.subscriptionStamps r hr _ (by simp [SubscriptionRow.stamps])

theorem written_createdAt (h : s.Valid) {r : SubscriptionRow} (hr : r ∈ s.subscriptions) :
    Stamp.IsWritten r.createdAt :=
  h.subscriptionStamps r hr _ (by simp [SubscriptionRow.stamps])

theorem written_feed (h : s.Valid) {id : Int} {row : FeedRow} (hrow : s.feed? id = some row) :
    Stamp.IsWritten row.updatedAt :=
  h.feedStamps row (mem_of_feed? hrow).1 _ (by simp [FeedRow.stamps])

/-- Every timestamp column holds a stamp. -/
theorem written (h : s.Valid) : ∀ text ∈ s.stamps, Stamp.IsWritten text := by
  intro text htext
  rcases mem_stamps.1 htext with ⟨r, hr, ht⟩ | ⟨r, hr, rfl⟩ | ⟨r, hr, rfl⟩ | ⟨r, hr, ht⟩
  · exact h.feedStamps r hr text ht
  · exact h.snapshotStamps r hr
  · exact h.mappingStamps r hr
  · exact h.subscriptionStamps r hr text ht

/-! ## Editing tables -/

/-- Edits that keep what identifies a feed and write proper columns. -/
theorem editFeed (h : s.Valid) (id : Int) {edit : FeedRow → FeedRow}
    (hid : ∀ f, (edit f).id = f.id) (hurl : ∀ f, (edit f).url = f.url)
    (hstatus : ∀ f, ∃ status : Status, (edit f).status = status.name)
    (hstamps : ∀ f, ∀ text ∈ (edit f).stamps, text ∈ f.stamps ∨ Stamp.IsWritten text) :
    (s.editFeed id edit).Valid := by
  have hmem : ∀ f' ∈ (s.editFeed id edit).feeds, ∃ f ∈ s.feeds, f' = f ∨ f' = edit f := by
    intro f' hf'
    obtain ⟨f, hf, rfl⟩ := List.mem_map.1 hf'
    refine ⟨f, hf, ?_⟩
    split
    · exact .inr rfl
    · exact .inl rfl
  have hids : (s.editFeed id edit).feeds.map (·.id) = s.feeds.map (·.id) :=
    map_key_edit (fun f : FeedRow => f.id) id hid
  have hfeed : ∀ f, (∃ row ∈ s.feeds, row.id = f) →
      ∃ row ∈ (s.editFeed id edit).feeds, row.id = f := by
    intro f hf
    have : f ∈ (s.editFeed id edit).feeds.map (·.id) := hids ▸ List.mem_map.2 hf
    exact List.mem_map.1 this
  exact
    { h with
      feedIds := hids ▸ h.feedIds
      feedUrls := by
        have hurls : (s.editFeed id edit).feeds.map (·.url) = s.feeds.map (·.url) := by
          unfold Store.editFeed
          rw [List.map_map]
          refine List.map_congr_left fun f _ => ?_
          simp only [Function.comp]
          split
          · exact hurl f
          · rfl
        exact hurls ▸ h.feedUrls
      subscriptionFeed := fun r hr f hf => hfeed f (h.subscriptionFeed r hr f hf)
      snapshotFeed := fun r hr => hfeed _ (h.snapshotFeed r hr)
      feedStatus := by
        intro f' hf'
        obtain ⟨f, hf, rfl | rfl⟩ := hmem f' hf'
        · exact h.feedStatus _ hf
        · exact hstatus f
      feedStamps := by
        intro f' hf' text ht
        obtain ⟨f, hf, rfl | rfl⟩ := hmem f' hf'
        · exact h.feedStamps _ hf text ht
        · exact (hstamps f text ht).elim (h.feedStamps f hf text) fun hw => hw }

/-- Changed subscriptions that keep their ids and who holds what, with proper columns. -/
theorem withSubscriptions (h : s.Valid) {rows : List SubscriptionRow}
    (hrows : List.Forall₂ (fun r r' : SubscriptionRow => r'.id = r.id ∧ r'.user = r.user ∧
      r'.feedId = r.feedId ∧ r'.createdAt = r.createdAt ∧
      (r'.status = r.status ∨ r.feedId ≠ none ∧ ∃ status : Status, r'.status = status.name) ∧
      (r'.updatedAt = r.updatedAt ∨ Stamp.IsWritten r'.updatedAt)) s.subscriptions rows) :
    { s with subscriptions := rows }.Valid := by
  have hids : rows.map (·.id) = s.subscriptions.map (·.id) :=
    map_eq_of_forall₂ (hrows.imp fun _ _ hr => hr.1)
  have hnodup : (rows.map (·.id)).Nodup := hids ▸ h.subscriptionIds
  exact
    { h with
      subscriptionIds := hnodup
      id_le := by
        intro r' hr'
        obtain ⟨r, hr, hid, -⟩ := forall₂_right hrows hr'
        exact hid ▸ h.id_le r hr
      holders := by
        intro r₁' hr₁' r₂' hr₂' f huser hf₁ hf₂
        obtain ⟨r₁, hr₁, hid₁, huser₁, hfeed₁, -⟩ := forall₂_right hrows hr₁'
        obtain ⟨r₂, hr₂, hid₂, huser₂, hfeed₂, -⟩ := forall₂_right hrows hr₂'
        obtain rfl := h.holders r₁ hr₁ r₂ hr₂ f (by rw [← huser₁, ← huser₂, huser])
          (hfeed₁ ▸ hf₁) (hfeed₂ ▸ hf₂)
        exact List.inj_on_of_nodup_map hnodup hr₁' hr₂' (hid₁.trans hid₂.symm)
      subscriptionFeed := by
        intro r' hr' f hf
        obtain ⟨r, hr, -, -, hfeed, -⟩ := forall₂_right hrows hr'
        exact h.subscriptionFeed r hr f (hfeed ▸ hf)
      pending := by
        intro r' hr' hf
        obtain ⟨r, hr, -, -, hfeed, -, hstatus, -⟩ := forall₂_right hrows hr'
        rcases hstatus with hstatus | ⟨hbound, -⟩
        · exact hstatus ▸ h.pending r hr (hfeed ▸ hf)
        · exact absurd (hfeed ▸ hf) hbound
      subscriptionStatus := by
        intro r' hr'
        obtain ⟨r, hr, -, -, -, -, hstatus, -⟩ := forall₂_right hrows hr'
        rcases hstatus with hstatus | ⟨-, hstatus⟩
        · exact hstatus ▸ h.subscriptionStatus r hr
        · exact hstatus
      subscriptionStamps := by
        intro r' hr' text ht
        obtain ⟨r, hr, -, -, -, hcreated, -, hupdated⟩ := forall₂_right hrows hr'
        simp only [SubscriptionRow.stamps, List.mem_cons, List.not_mem_nil, or_false] at ht
        rcases ht with rfl | rfl
        · exact hcreated ▸ h.written_createdAt hr
        · exact hupdated.elim (fun he => he ▸ h.written_updatedAt hr) fun hw => hw }

/-- One more subscription, with the next id. -/
theorem addSubscription (h : s.Valid) {row : Planned} {stamp : String}
    (hstamp : Stamp.IsWritten stamp) (hpending : row.feedId = none → row.status = .pending)
    (hfeed : ∀ f, row.feedId = some f → (∃ r ∈ s.feeds, r.id = f) ∧ s.holder? row.user f = none) :
    (s.addSubscription row stamp).Valid := by
  have hnew : ∀ r ∈ (s.addSubscription row stamp).subscriptions, r ∈ s.subscriptions ∨
      r = ⟨s.lastSubscriptionId + 1, row.user, row.feedId, row.status.name, row.url, none, 0, stamp,
        stamp⟩ := by
    intro r hr
    simpa [Store.addSubscription] using hr
  exact
    { h with
      subscriptionIds := by
        simp only [Store.addSubscription, List.map_append, List.map_cons, List.map_nil]
        refine List.nodup_append.2 ⟨h.subscriptionIds, by simp, ?_⟩
        intro a ha b hb
        obtain ⟨r, hr, rfl⟩ := List.mem_map.1 ha
        obtain rfl := List.mem_singleton.1 hb
        have := h.id_le r hr
        omega
      id_le := by
        intro r hr
        change r.id ≤ s.lastSubscriptionId + 1
        rcases hnew r hr with hr | rfl
        · have := h.id_le r hr
          omega
        · exact Int.le_refl _
      holders := by
        intro r hr r' hr' f huser hf hf'
        rcases hnew r hr with hr | rfl <;> rcases hnew r' hr' with hr' | rfl
        · exact h.holders r hr r' hr' f huser hf hf'
        · exact absurd hf (holder?_eq_none (hfeed f hf').2 hr huser)
        · exact absurd hf' (holder?_eq_none (hfeed f hf).2 hr' huser.symm)
        · rfl
      subscriptionFeed := by
        intro r hr f hf
        rcases hnew r hr with hr | rfl
        · exact h.subscriptionFeed r hr f hf
        · exact (hfeed f hf).1
      pending := by
        intro r hr hf
        rcases hnew r hr with hr | rfl
        · exact h.pending r hr hf
        · exact congrArg Status.name (hpending hf)
      subscriptionStatus := by
        intro r hr
        rcases hnew r hr with hr | rfl
        · exact h.subscriptionStatus r hr
        · exact ⟨_, rfl⟩
      subscriptionStamps := by
        intro r hr text ht
        rcases hnew r hr with hr | rfl
        · exact h.subscriptionStamps r hr text ht
        · simp only [SubscriptionRow.stamps, List.mem_cons, List.not_mem_nil, or_false,
            or_self] at ht
          exact ht ▸ hstamp }

end Valid

end Store

/-! ## Proper calls -/

/-- What a transition writes are stamps, and its time has the precision of a store. -/
def Transition.Proper : Transition → Prop
  | .begin checkedAt => Stamp.IsWritten checkedAt
  | .finish _ _ updatedAt syncedAt now =>
    Stamp.IsWritten updatedAt ∧ Stamp.IsWritten syncedAt ∧ now.IsWhole
  | .fail now => now.IsWhole

/-- A transition that rewrites what describes the feed. -/
def Transition.rewrites : Transition → Bool
  | .finish _ changed .. => changed
  | _ => false

theorem Transition.rewrites_of_target {t : Transition} (h : t.target ≠ .ready) :
    t.rewrites = false := by
  cases t with
  | begin checkedAt => rfl
  | finish => exact absurd rfl h
  | fail now => rfl

/-- Followers stay as they are when a crawl begins; otherwise each follows into the status that the
transition leads to, by force where it rewrites what describes the feed. -/
theorem Store.followers_cases {s : Store} {id : Int} {t : Transition} {rows : List SubscriptionRow}
    (h : s.followers id t = .ok rows) :
    (t.target = .updating ∧ rows = s.subscriptions) ∨
      t.target ≠ .updating ∧ ∃ now, (t.Proper → now.IsWhole) ∧
        List.Forall₂ (fun r r' => r.follow id t.target now t.rewrites = .ok r')
          s.subscriptions rows := by
  cases t with
  | begin checkedAt => exact .inl ⟨rfl, (Except.ok.inj h).symm⟩
  | finish update changed updatedAt syncedAt now =>
    exact .inr ⟨by simp [Transition.target], now, fun ht => ht.2.2, mapM_eq_ok.1 h⟩
  | fail now => exact .inr ⟨by simp [Transition.target], now, fun ht => ht, mapM_eq_ok.1 h⟩

/-- What names no feed is pending. -/
def Planned.Proper (row : Planned) : Prop := row.feedId = none → row.status = .pending

/-- The arguments of a call are those of an operation: stamps in place of any texts, and a clock
that replaces an earlier one. -/
def Call.Proper : Call → Prop
  | .addMapping _ _ stamp => Stamp.IsWritten stamp
  | .ensureFeed _ stamp => Stamp.IsWritten stamp
  | .moveFeed _ t => t.Proper
  | .addSnapshot _ stamp => Stamp.IsWritten stamp
  | .insertRow row stamp => row.Proper ∧ Stamp.IsWritten stamp
  | .insertBatch rows _ stamp => (∀ row ∈ rows, row.Proper) ∧ Stamp.IsWritten stamp
  | .swapOffset _ _ _ seen stamp => Stamp.Before seen stamp
  | .bind _ _ _ stamp => Stamp.IsWritten stamp
  | _ => True

/-- A feed that the call binds to exists. -/
def Call.BindsKnown (s : Store) : Call → Prop
  | .bind _ feedId _ _ => ∃ row ∈ s.feeds, row.id = feedId
  | _ => True

/-- What is found under an id is a subscription with its feed. -/
theorem Store.exists_of_runFindSubscription {s : Store} {id : Int} {owner : Option Int}
    {row : SubscriptionRow × Option FeedRow} (h : Call.runFindSubscription id owner s = some row) :
    ∃ r ∈ s.subscriptions, r.id = id ∧ s.withFeed r = row := by
  obtain ⟨r, hr, hrow⟩ := Option.map_eq_some_iff.1 h
  obtain ⟨hmem, hid⟩ := mem_of_subscription? (Option.eq_some_of_filter_eq_some hr)
  exact ⟨r, hmem, hid, hrow⟩

/-- What is found for an owner is the owner's. -/
theorem Store.user_of_findSubscription {s : Store} {id user : Int}
    {row : SubscriptionRow × Option FeedRow}
    (h : Call.runFindSubscription id (some user) s = some row) : row.1.user = user := by
  obtain ⟨r, hr, rfl⟩ := Option.map_eq_some_iff.1 h
  exact of_decide_eq_true (Option.filter_eq_some_iff.1 hr).2

/-- A subscription that has been bound to a feed. -/
def SubscriptionRow.boundTo (feedId : Int) (status : Status) (stamp : String)
    (r : SubscriptionRow) : SubscriptionRow :=
  { r with feedId := some feedId, status := status.name, updatedAt := stamp }

/-- Binding has found the subscription unbound and its user without the feed, or it has changed
nothing. -/
theorem Call.runBind_cases (id feedId : Int) (status : Status) (stamp : String) (s : Store) :
    ((runBind id feedId status stamp s).1 ≠ .bound ∧ (runBind id feedId status stamp s).2 = s) ∨
      ∃ r, s.subscription? id = some r ∧ r.feedId = none ∧ s.holder? r.user feedId = none ∧
        runBind id feedId status stamp s =
          (.bound, s.editSubscription id (·.boundTo feedId status stamp)) := by
  unfold runBind
  split
  · exact .inl ⟨by simp, rfl⟩
  · next r hr =>
    split
    · exact .inl ⟨by simp, rfl⟩
    · next hbound =>
      split
      · exact .inl ⟨by simp, rfl⟩
      · next hholder => exact .inr ⟨r, hr, by simpa using hbound, by simpa using hholder, rfl⟩

theorem Call.runBind_eq {s : Store} {id feedId : Int} {r : SubscriptionRow}
    (hr : s.subscription? id = some r) (hunbound : r.feedId = none)
    (hfree : s.holder? r.user feedId = none) (status : Status) (stamp : String) :
    runBind id feedId status stamp s =
      (.bound, s.editSubscription id (·.boundTo feedId status stamp)) := by
  simp only [runBind, hr, hunbound, hfree, Option.isSome_none, Bool.false_eq_true, if_false]
  rfl

/-- Binding a subscription that is unbound stops only at its user's subscription to the feed. -/
theorem Call.runBind_of_unbound {s : Store} {id : Int} {r : SubscriptionRow}
    (hr : s.subscription? id = some r) (hunbound : r.feedId = none) (feedId : Int)
    (status : Status) (stamp : String) :
    runBind id feedId status stamp s =
        (.bound, s.editSubscription id (·.boundTo feedId status stamp)) ∨
      (∃ held, s.holder? r.user feedId = some held) ∧
        runBind id feedId status stamp s = (.duplicate, s) := by
  cases hheld : s.holder? r.user feedId with
  | none => exact .inl (runBind_eq hr hunbound hheld status stamp)
  | some held => exact .inr ⟨⟨held, rfl⟩, by simp [runBind, hr, hunbound, hheld]⟩

namespace Store.Valid

variable {s : Store}

theorem ensureFeed (h : s.Valid) {url stamp : String} (hstamp : Stamp.IsWritten stamp) :
    (Call.runEnsureFeed url stamp s).2.Valid := by
  unfold Call.runEnsureFeed
  split
  · exact h
  · next hnone =>
    have hmem : ∀ r ∈ s.feeds, ∀ f, r.id = f →
        ∃ row ∈ s.feeds ++ [Call.newFeed (nextId (s.feeds.map (·.id))) url stamp], row.id = f :=
      fun r hr f hf => ⟨r, List.mem_append_left _ hr, hf⟩
    exact
      { h with
        feedIds := by
          simp only [List.map_append, List.map_cons, List.map_nil]
          refine List.nodup_append.2 ⟨h.feedIds, by simp, ?_⟩
          intro a ha b hb
          obtain rfl := List.mem_singleton.1 hb
          have := lt_nextId ha
          simp only [Call.newFeed, ne_eq]
          omega
        feedUrls := by
          simp only [List.map_append, List.map_cons, List.map_nil]
          refine List.nodup_append.2 ⟨h.feedUrls, by simp, ?_⟩
          intro a ha b hb
          obtain ⟨r, hr, rfl⟩ := List.mem_map.1 ha
          obtain rfl := List.mem_singleton.1 hb
          simpa using List.find?_eq_none.1 hnone r hr
        subscriptionFeed := by
          intro r hr f hf
          obtain ⟨row, hrow, hid⟩ := h.subscriptionFeed r hr f hf
          exact hmem row hrow f hid
        snapshotFeed := by
          intro r hr
          obtain ⟨row, hrow, hid⟩ := h.snapshotFeed r hr
          exact hmem row hrow _ hid
        feedStatus := by
          intro r hr
          rcases List.mem_append.1 hr with hr | hr
          · exact h.feedStatus r hr
          · obtain rfl := List.mem_singleton.1 hr
            exact ⟨.pending, rfl⟩
        feedStamps := by
          intro r hr text ht
          rcases List.mem_append.1 hr with hr | hr
          · exact h.feedStamps r hr text ht
          · obtain rfl := List.mem_singleton.1 hr
            have : text = stamp := by simpa [FeedRow.stamps, Call.newFeed] using ht
            exact this ▸ hstamp }

theorem addMapping (h : s.Valid) {source target stamp : String} (hstamp : Stamp.IsWritten stamp) :
    (Call.runAddMapping source target stamp s).2.Valid :=
  { h with
    mappingIds := by
      simp only [Call.runAddMapping, List.map_append, List.map_cons, List.map_nil]
      refine List.nodup_append.2 ⟨h.mappingIds, by simp, ?_⟩
      intro a ha b hb
      obtain rfl := List.mem_singleton.1 hb
      have := lt_nextId ha
      omega
    mappingStamps := by
      intro r hr
      rcases List.mem_append.1 hr with hr | hr
      · exact h.mappingStamps r hr
      · obtain rfl := List.mem_singleton.1 hr
        exact hstamp }

theorem addSnapshot (h : s.Valid) {d : Snapshot.Draft} {stamp : String}
    (hstamp : Stamp.IsWritten stamp) : (Call.runAddSnapshot d stamp s).2.Valid := by
  unfold Call.runAddSnapshot
  split
  · exact h
  · next row hrow =>
    exact
      { h with
        snapshotFeed := by
          intro r hr
          rcases List.mem_append.1 hr with hr | hr
          · exact h.snapshotFeed r hr
          · obtain rfl := List.mem_singleton.1 hr
            exact ⟨row, mem_of_feed? hrow⟩
        snapshotStamps := by
          intro r hr
          rcases List.mem_append.1 hr with hr | hr
          · exact h.snapshotStamps r hr
          · obtain rfl := List.mem_singleton.1 hr
            exact hstamp }

/-- Followers keep ids, users and feeds, and their columns stay proper. -/
theorem followers (h : s.Valid) {feedId : Int} {status : Status} {now : Instant} {force : Bool}
    {rows : List SubscriptionRow}
    (hrows : List.Forall₂ (fun r r' => r.follow feedId status now force = .ok r')
      s.subscriptions rows) : { s with subscriptions := rows }.Valid := by
  refine h.withSubscriptions (hrows.imp fun r r' hr => ?_)
  rcases SubscriptionRow.follow_cases hr with ⟨rfl, -⟩ | ⟨hfeed, previous, t, -, -, rfl⟩
  · exact ⟨rfl, rfl, rfl, rfl, .inl rfl, .inl rfl⟩
  · exact ⟨rfl, rfl, rfl, rfl, .inr ⟨by simp [hfeed], status, rfl⟩,
      .inr (Stamp.isWritten_stamp t)⟩

theorem apply (h : s.Valid) (id : Int) {t : Transition} (ht : t.Proper) :
    (s.editFeed id (·.apply t)).Valid := by
  cases t with
  | begin checkedAt =>
    refine h.editFeed id (fun _ => rfl) (fun _ => rfl) (fun _ => ⟨.updating, rfl⟩) ?_
    intro f text htext
    simp only [FeedRow.apply, FeedRow.stamps, Option.toList_some, List.mem_cons, List.mem_append,
      List.not_mem_nil, or_false] at htext ⊢
    rcases htext with rfl | rfl | rfl | htext
    · exact .inl (.inl rfl)
    · exact .inl (.inr (.inl rfl))
    · exact .inr ht
    · exact .inl (.inr (.inr (.inr htext)))
  | finish update changed updatedAt syncedAt now =>
    obtain ⟨hupdated, hsynced, -⟩ := ht
    cases changed with
    | true =>
      refine h.editFeed id (fun _ => rfl) (fun _ => rfl) (fun _ => ⟨.ready, rfl⟩) ?_
      intro f text htext
      simp only [FeedRow.apply, FeedRow.stamps, Option.toList_some, List.mem_cons, List.mem_append,
        List.not_mem_nil, or_false] at htext ⊢
      rcases htext with rfl | rfl | htext | rfl
      · exact .inl (.inl rfl)
      · exact .inr hupdated
      · exact .inl (.inr (.inr (.inl htext)))
      · exact .inr hsynced
    | false =>
      refine h.editFeed id (fun _ => rfl) (fun _ => rfl) (fun _ => ⟨.ready, rfl⟩) ?_
      intro f text htext
      simp only [FeedRow.apply, FeedRow.stamps, Option.toList_some, List.mem_cons, List.mem_append,
        List.not_mem_nil, or_false] at htext ⊢
      rcases htext with rfl | rfl | htext | rfl
      · exact .inl (.inl rfl)
      · exact .inl (.inr (.inl rfl))
      · exact .inl (.inr (.inr (.inl htext)))
      · exact .inr hsynced
  | fail now =>
    exact h.editFeed id (fun _ => rfl) (fun _ => rfl) (fun _ => ⟨.error, rfl⟩)
      fun _ _ htext => .inl htext

theorem moveFeed (h : s.Valid) (id : Int) {t : Transition} (ht : t.Proper) :
    (s.moveFeed id t).2.Valid := by
  rcases moveFeed_cases s id t with ⟨-, hs⟩ | ⟨row, rows, -, -, hfollow, hs⟩
  · rwa [hs]
  · rw [hs]
    have happly := h.apply id ht
    rcases followers_cases hfollow with ⟨-, rfl⟩ | ⟨-, now, -, hrows⟩
    · exact happly
    · exact happly.followers hrows

theorem insertRow (h : s.Valid) {row : Planned} {stamp : String} (hrow : row.Proper)
    (hstamp : Stamp.IsWritten stamp) {o : Inserted} {t : Store}
    (ht : Store.insertRow stamp s row = some (o, t)) : t.Valid := by
  rcases insertRow_cases ht with ⟨_, _, _, _, _, rfl⟩ | ⟨hfeed, -, rfl⟩
  · exact h
  · exact h.addSubscription hstamp hrow hfeed

theorem insertBatch (h : s.Valid) {rows : List Planned} (size : Nat) {stamp : String}
    (hrows : ∀ row ∈ rows, row.Proper) (hstamp : Stamp.IsWritten stamp) :
    (s.insertBatch rows size stamp).2.Valid :=
  insertBatch_induction (P := fun s t => s.Valid → t.Valid) (fun _ h => h)
    (fun _ _ _ hst htu h => htu (hst h)) rows size
    (fun r hr _ _ _ ht hs => hs.insertRow (hrows r hr) hstamp ht) s h

theorem deleteSubscription (h : s.Valid) (id user : Int) :
    (Call.runDeleteSubscription id user s).2.Valid := by
  have hmem : ∀ r ∈ (Call.runDeleteSubscription id user s).2.subscriptions,
      r ∈ s.subscriptions := fun _ hr => List.mem_of_mem_filter hr
  exact
    { h with
      subscriptionIds := h.subscriptionIds.sublist (List.filter_sublist.map _)
      id_le := fun r hr => h.id_le r (hmem r hr)
      holders := fun r hr r' hr' => h.holders r (hmem r hr) r' (hmem r' hr')
      subscriptionFeed := fun r hr => h.subscriptionFeed r (hmem r hr)
      pending := fun r hr => h.pending r (hmem r hr)
      subscriptionStatus := fun r hr => h.subscriptionStatus r (hmem r hr)
      subscriptionStamps := fun r hr => h.subscriptionStamps r (hmem r hr) }

theorem swapOffset (h : s.Valid) (id user offset : Int) {seen stamp : String}
    (hstamp : Stamp.Before seen stamp) :
    (Call.runSwapOffset id user offset seen stamp s).2.Valid := by
  refine h.withSubscriptions (List.forall₂_map_right_iff.2 (List.forall₂_same.2 fun r hr => ?_))
  split
  · exact ⟨rfl, rfl, rfl, rfl, .inl rfl, .inr hstamp.right⟩
  · exact ⟨rfl, rfl, rfl, rfl, .inl rfl, .inl rfl⟩

/-- A subscription that is bound to a feed that its user does not hold. -/
theorem bind (h : s.Valid) (id : Int) {feedId : Int} (status : Status) {stamp : String}
    (hfeed : ∃ row ∈ s.feeds, row.id = feedId) (hstamp : Stamp.IsWritten stamp) :
    (Call.runBind id feedId status stamp s).2.Valid := by
  rcases Call.runBind_cases id feedId status stamp s with
    ⟨-, hs⟩ | ⟨r₀, hr₀, -, hfree, hs⟩
  · rwa [hs]
  · obtain ⟨hmem₀, rfl⟩ := mem_of_subscription? hr₀
    have hids : (s.editSubscription r₀.id (·.boundTo feedId status stamp)).subscriptions.map
        (·.id) = s.subscriptions.map (·.id) :=
      map_key_edit (fun r : SubscriptionRow => r.id) r₀.id fun _ => rfl
    have hmem : ∀ r' ∈ (s.editSubscription r₀.id (·.boundTo feedId status stamp)).subscriptions,
        r' ∈ s.subscriptions ∨ r' = r₀.boundTo feedId status stamp := by
      intro r' hr'
      obtain ⟨r, hr, rfl⟩ := List.mem_map.1 hr'
      split
      · next hid => exact .inr (by rw [h.eq_of_id hr hmem₀ hid])
      · exact .inl hr
    rw [hs]
    exact
      { h with
        subscriptionIds := hids ▸ h.subscriptionIds
        id_le := by
          intro r' hr'
          rcases hmem r' hr' with hr' | rfl
          · exact h.id_le r' hr'
          · exact h.id_le r₀ hmem₀
        holders := by
          intro r hr r' hr' f huser hf hf'
          rcases hmem r hr with hr | rfl <;> rcases hmem r' hr' with hr' | rfl
          · exact h.holders r hr r' hr' f huser hf hf'
          · obtain rfl := Option.some.inj hf'
            exact absurd hf (holder?_eq_none hfree hr huser)
          · obtain rfl := Option.some.inj hf
            exact absurd hf' (holder?_eq_none hfree hr' huser.symm)
          · rfl
        subscriptionFeed := by
          intro r' hr' f hf
          rcases hmem r' hr' with hr' | rfl
          · exact h.subscriptionFeed r' hr' f hf
          · obtain rfl := Option.some.inj hf
            exact hfeed
        pending := by
          intro r' hr' hf
          rcases hmem r' hr' with hr' | rfl
          · exact h.pending r' hr' hf
          · cases hf
        subscriptionStatus := by
          intro r' hr'
          rcases hmem r' hr' with hr' | rfl
          · exact h.subscriptionStatus r' hr'
          · exact ⟨status, rfl⟩
        subscriptionStamps := by
          intro r' hr' text ht
          rcases hmem r' hr' with hr' | rfl
          · exact h.subscriptionStamps r' hr' text ht
          · simp only [SubscriptionRow.stamps, SubscriptionRow.boundTo, List.mem_cons,
              List.not_mem_nil, or_false] at ht
            rcases ht with rfl | rfl
            · exact h.written_createdAt hmem₀
            · exact hstamp }

end Store.Valid

/-- **Proper calls keep stores valid**, as long as they bind to feeds that exist. -/
theorem Call.valid_run {s : Store} (h : s.Valid) {c : Call} (hc : c.Proper)
    (hfeed : c.BindsKnown s) : (c.run s).2.Valid := by
  cases c with
  | addMapping => exact h.addMapping hc
  | ensureFeed => exact h.ensureFeed hc
  | moveFeed id => exact h.moveFeed id hc
  | addSnapshot => exact h.addSnapshot hc
  | insertRow row stamp =>
    simp only [Call.run, Call.runInsertRow]
    split
    · next ht => exact h.insertRow hc.1 hc.2 ht
    · exact h
  | insertBatch rows size => exact h.insertBatch size hc.1 hc.2
  | deleteSubscription id user => exact h.deleteSubscription id user
  | swapOffset id user offset => exact h.swapOffset id user offset hc
  | bind id feedId status => exact h.bind id status hfeed hc
  | _ => exact h

end Syndication
