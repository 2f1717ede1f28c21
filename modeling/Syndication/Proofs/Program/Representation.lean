import Syndication.Proofs.Program.System
import Syndication.Proofs.Record.Headers
import Syndication.Proofs.Store.Step
/-!
# How stores represent what they hold

Whatever requests run at the same time, the tables of a store stay consistent
(`Store.Consistent`), an id that is given to a subscription is greater than every one given before
it, and what is of the years 0 to 9999 can be read back, row by row (`Store.Readable`):
`System.Reachable.represents`.
-/

namespace Syndication

namespace Store

/-- The tables of a store agree with each other: canonical addresses are distinct, no user holds a
feed twice, every feed that is named exists, and what is not bound is pending. -/
structure Consistent (s : Store) : Prop where
  feedUrls : (s.feeds.map (·.url)).Nodup
  holders : ((s.subscriptions.filter (·.feedId.isSome)).map fun r => (r.user, r.feedId)).Nodup
  subscriptionFeed : ∀ r ∈ s.subscriptions, ∀ f, r.feedId = some f → ∃ row ∈ s.feeds, row.id = f
  snapshotFeed : ∀ r ∈ s.snapshots, ∃ row ∈ s.feeds, row.id = r.feedId
  unbound : ∀ r ∈ s.subscriptions, r.feedId = none → r.status = Status.pending.name

/-- Every timestamp reads as an instant that is written as the same text, and every row loads, with
details and without. -/
structure Readable (s : Store) : Prop where
  stamps : ∀ text ∈ s.stamps, ∃ t, Stamp.decode text = .ok t ∧ t.stamp = text
  feeds : ∀ r ∈ s.feeds, ∀ detail, ∃ f, r.load detail = .ok f
  subscriptions : ∀ r ∈ s.subscriptions, ∀ detail,
    ∃ a, SubscriptionRow.load detail (s.withFeed r) = .ok a
  mappings : ∀ r ∈ s.mappings, ∃ m, r.load = .ok m
  snapshots : ∀ r ∈ s.snapshots, ∃ p, r.load = .ok p

theorem Valid.consistent {s : Store} (h : s.Valid) : s.Consistent where
  feedUrls := h.feedUrls
  holders := by
    have hrows : s.subscriptions.Nodup := List.Nodup.of_map _ h.subscriptionIds
    refine (hrows.filter _).map_on fun r hr r' hr' heq => ?_
    obtain ⟨hr, hbound⟩ := List.mem_filter.1 hr
    obtain ⟨f, hf⟩ := Option.isSome_iff_exists.1 hbound
    obtain ⟨huser, hfeed⟩ := Prod.mk.inj heq
    exact h.holders r hr r' (List.mem_of_mem_filter hr') f huser hf (hfeed ▸ hf)
  subscriptionFeed := h.subscriptionFeed
  snapshotFeed := h.snapshotFeed
  unbound := h.pending

/-- The headers of every snapshot are the text of some headers. -/
def KeepsHeaders (s : Store) : Prop := ∀ r ∈ s.snapshots, ∃ h : Headers, r.headers = h.encode

theorem KeepsHeaders.run {s : Store} (h : s.KeepsHeaders) (c : Call) :
    (c.run s).2.KeepsHeaders := by
  obtain ⟨added, hsnapshots, hadded⟩ := c.snapshots_run s
  intro r hr
  rcases List.mem_append.1 (hsnapshots ▸ hr) with hold | hnew
  · exact h r hold
  · obtain ⟨d, -, -, hheaders, -⟩ := hadded r hnew
    exact ⟨d.headers, hheaders⟩

theorem Valid.readable {s : Store} (h : s.Valid) (hheaders : s.KeepsHeaders) (hy : s.InYears) :
    s.Readable where
  stamps text htext := by
    obtain ⟨t, ht⟩ := hy.decode h htext
    exact ⟨t, ht, (Stamp.Holds.of_decode (h.written text htext) ht).2⟩
  feeds r hr detail := h.feed_loads hy detail hr
  subscriptions r hr detail := h.subscription_loads hy detail hr
  mappings r hr := by
    obtain ⟨t, ht⟩ := hy.decode h (mem_stamps.2 (.inr (.inr (.inl ⟨r, hr, rfl⟩))))
    exact ⟨_, bind_eq_ok.2 ⟨t, Stamp.load_eq_ok.2 ht, rfl⟩⟩
  snapshots r hr := by
    obtain ⟨t, ht⟩ := hy.decode h (mem_stamps.2 (.inr (.inl ⟨r, hr, rfl⟩)))
    obtain ⟨headers, hr⟩ := hheaders r hr
    have hload : Headers.load r.headers = .ok headers := by
      rw [Headers.load, hr, Headers.decode?_encode]
    exact ⟨_, bind_eq_ok.2 ⟨headers, hload, bind_eq_ok.2 ⟨t, Stamp.load_eq_ok.2 ht, rfl⟩⟩⟩

end Store

namespace System

variable {x y : System} {a : Action}

theorem Reachable.keepsHeaders (hx : x.Reachable) : x.store.KeepsHeaders := by
  have hinitial : initial.store.KeepsHeaders := fun r hr => by cases hr
  exact Runs.stores (R := fun s t => s.KeepsHeaders → t.KeepsHeaders) (fun _ h => h)
    (fun _ _ _ hst htu h => htu (hst h)) (fun _ c _ _ _ h => h.run c) (Reachable.sound .refl) hx
    hinitial

/-- Of the ids of subscriptions a step keeps some, and appends the next ones. -/
theorem ids_act (hy : x.act a = some y) : ∃ kept n,
    y.store.subscriptions.map (·.id) = kept ++ x.store.freshIds n ∧
      kept.Sublist (x.store.subscriptions.map (·.id)) := by
  have same : ∃ kept n, x.store.subscriptions.map (·.id) = kept ++ x.store.freshIds n ∧
      kept.Sublist (x.store.subscriptions.map (·.id)) :=
    ⟨_, 0, by simp [Store.freshIds], .refl _⟩
  cases act_eq_some.1 hy with
  | start request => exact same
  | read t hi => exact same
  | @call i request past c next hi =>
    obtain ⟨kept, n, hids, hkept, -⟩ := c.ids_run x.store
    exact ⟨kept, n, hids, hkept⟩

/-- **Stores represent what they hold**: in every state that any requests lead to the tables agree
with each other; where all instants are of the years 0 to 9999 every timestamp is canonical and
every row can be read back; and the ids that a step gives to subscriptions come in order and after
every id that there has been in any state before. -/
theorem Reachable.represents (hx : x.Reachable) :
    x.store.Consistent ∧ (x.store.InYears → x.store.Readable) ∧
      ∀ a y, x.act a = some y → ∃ kept fresh,
        y.store.subscriptions.map (·.id) = kept ++ fresh ∧
          kept.Sublist (x.store.subscriptions.map (·.id)) ∧ fresh.Pairwise (· < ·) ∧
          ∀ w : System, w.Reachable → w.Runs (fun _ _ => True) x →
            ∀ id ∈ fresh, ∀ r ∈ w.store.subscriptions, r.id < id := by
  refine ⟨hx.sound.valid.consistent, hx.sound.valid.readable hx.keepsHeaders, fun a y hy => ?_⟩
  obtain ⟨kept, n, hids, hkept⟩ := ids_act hy
  refine ⟨kept, x.store.freshIds n, hids, hkept, x.store.pairwise_freshIds n,
    fun w hw hrun id hid r hr => ?_⟩
  calc r.id ≤ w.store.lastSubscriptionId := hw.sound.valid.id_le r hr
    _ ≤ x.store.lastSubscriptionId := (hrun.extends hw.sound).lastId_le
    _ < id := Store.lt_of_mem_freshIds hid

/-- A feed is created, a fetch of it is recorded, and a user subscribes to an address. -/
def subscribing : List Action :=
  [.start (.getOrCreateFeed "http://a.com/rss.xml"), .read 0 .epoch, .call 0,
    .start (.recordSnapshot ⟨1, "http://a.com/rss.xml", none, some 200, none, none,
      .ofList [("server", "a"), ("etag", "b")], none, Codec.Gzip.write⟩), .read 1 .epoch, .call 1,
    .start (.subscribe "http://a.com/" 1), .call 2, .read 2 .epoch, .call 2]

/-- The subscription is deleted, and the user is about to subscribe again. -/
def subscribingAgain : List Action :=
  [.start (.unsubscribe 1 1), .call 3, .start (.subscribe "http://a.com/" 1), .call 4,
    .read 4 .epoch]

/-- The id of a subscription that has been deleted is not given again. -/
theorem represents_subscribingAgain : ∃ w x y : System, w.Reachable ∧
    w.Runs (fun _ _ => True) x ∧ x.Reachable ∧ x.store.InYears ∧ x.act (.call 4) = some y ∧
    w.store.subscriptions.map (·.id) = [1] ∧ x.store.subscriptions = [] ∧
    y.store.subscriptions.map (·.id) = [2] ∧ x.store.Consistent ∧ x.store.Readable ∧
    ∀ r ∈ y.store.subscriptions, 1 < r.id := by
  have hproper : ∀ a ∈ subscribing ++ subscribingAgain, a.Proper := by
    simp [subscribing, subscribingAgain, Action.Proper, Request.Proper]
  have hfirst : (initial.play subscribing).map (fun w => w.store.subscriptions.map (·.id)) =
      some [1] := by decide +kernel
  have hsecond : (initial.play (subscribing ++ subscribingAgain)).map (fun x =>
      (x.store.subscriptions, x.store.stamps.all fun text => (Stamp.decode text).toBool)) =
        some ([], true) := by decide +kernel
  have hthird : ((initial.play (subscribing ++ subscribingAgain)).bind (·.act (.call 4))).map
      (fun y => y.store.subscriptions.map (·.id)) = some [2] := by decide +kernel
  obtain ⟨w, hw, hwIds⟩ := Option.map_eq_some_iff.1 hfirst
  obtain ⟨x, hx, hxRows⟩ := Option.map_eq_some_iff.1 hsecond
  rw [hx, Option.bind_some] at hthird
  obtain ⟨y, hy, hyIds⟩ := Option.map_eq_some_iff.1 hthird
  obtain ⟨hnone, hstamps⟩ := Prod.mk.inj hxRows
  have hlater : w.play subscribingAgain = some x := by
    rwa [play_append, hw, Option.bind_some] at hx
  have hwReachable : w.Reachable :=
    runs_of_play (fun a ha => hproper a (List.mem_append_left _ ha)) hw
  have hrun : w.Runs (fun _ _ => True) x :=
    runs_of_play (fun a ha => hproper a (List.mem_append_right _ ha)) hlater
  have hxReachable : x.Reachable := hwReachable.trans hrun
  have hyears : x.store.InYears := Store.inYears_of_decode (List.all_eq_true.1 hstamps)
  obtain ⟨hconsistent, hreadable, hids⟩ := hxReachable.represents
  obtain ⟨kept, fresh, hsplit, hkept, -, hfresh⟩ := hids _ y hy
  obtain ⟨r, hr, hid⟩ : ∃ r ∈ w.store.subscriptions, r.id = 1 :=
    List.mem_map.1 (hwIds ▸ List.mem_singleton.2 rfl)
  obtain rfl : kept = [] := by simpa [hnone] using hkept
  refine ⟨w, x, y, hwReachable, hrun, hxReachable, hyears, hy, hwIds, hnone, hyIds, hconsistent,
    hreadable hyears, fun r' hr' => ?_⟩
  have hmem : r'.id ∈ fresh := by
    rw [List.nil_append] at hsplit
    exact hsplit ▸ List.mem_map_of_mem hr'
  exact hid ▸ hfresh w hwReachable hrun r'.id hmem r hr

end System

end Syndication
