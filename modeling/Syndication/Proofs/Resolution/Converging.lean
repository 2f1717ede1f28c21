import Syndication.Proofs.Resolution.Latest
import Syndication.Proofs.Subscription.Bulk
/-!
# Resolving leads every user to one feed

Once a subscription has been resolved its address leads to the feed at the target, as long as
nothing else is recorded for it. From then on every user who subscribes to the address, alone or
within a list, comes to hold that one feed (`Moment.resolve_converges`). Why this lasts is that
feeds are never taken away and that the latest mapping of a source is the last one recorded; what
it is good for is that a known feed is not held twice (`Store.Valid.converges`).
-/

namespace Syndication

namespace Store

variable {s : Store} {user f : Int} {url stamp : String}

/-! ## Addresses of a feed -/

/-- To subscribe does not change where addresses lead. -/
theorem feedOf?_subscribed (s : Store) (user : Int) (stamp url other : String) :
    (s.subscribed user stamp url).feedOf? other = s.feedOf? other := by
  unfold subscribed
  split
  · split <;> rfl
  · rfl

/-- Who subscribes to an address holds the feed that it leads to, and what was held before. -/
theorem holds_subscribed (hf : s.feedOf? url = some f ∨ s.Holds user f) :
    (s.subscribed user stamp url).Holds user f := by
  rw [← isSome_holder?] at hf ⊢
  unfold subscribed
  split
  · next f' hf' =>
    split
    · next hsome =>
      rcases hf with hf | hf
      · obtain rfl := Option.some.inj (hf'.symm.trans hf)
        exact hsome
      · exact hf
    · rw [isSome_holder?_addSubscription]
      exact hf.symm.imp_right fun hf => ⟨rfl, hf'.symm.trans hf⟩
  · next hnone =>
    rw [isSome_holder?_addSubscription]
    exact .inl (hf.resolve_left (by simp [hnone]))

theorem holds_foldl_subscribed {urls : List String}
    (hf : (∃ url ∈ urls, s.feedOf? url = some f) ∨ s.Holds user f) :
    (urls.foldl (subscribed user stamp) s).Holds user f := by
  induction urls generalizing s with
  | nil => simpa using hf
  | cons url urls ih =>
    refine ih ?_
    rcases hf with ⟨other, hother, hf⟩ | hf
    · rcases List.mem_cons.1 hother with rfl | hother
      · exact .inr (holds_subscribed (.inl hf))
      · exact .inl ⟨other, hother, by rwa [feedOf?_subscribed]⟩
    · exact .inr (holds_subscribed (.inr hf))

/-! ## Subscribing to a known feed -/

/-- An address leads every user to one feed, whatever the clock shows within the years 0 to 9999. -/
structure Converges (s : Store) (url : String) (f : Int) : Prop where
  /-- Who holds the feed is told so. -/
  held : ∀ (user : Int) (clock : Nat → Instant), (clock 0).InYears → s.Holds user f →
    (subscribe url user).runOn clock s = (.error (.duplicateSubscription user f), s)
  /-- Who does not gets one new subscription, which is bound to the feed. -/
  free : ∀ (user : Int) (clock : Nat → Instant), (clock 0).InYears → ¬ s.Holds user f →
    ∃ a t r, (subscribe url user).runOn clock s = (.ok a, t) ∧
      t = { s with subscriptions := s.subscriptions ++ [r], lastSubscriptionId := r.id } ∧
      r.user = user ∧ r.feedId = some f ∧ r.status = Status.ready.name ∧ r.url = url ∧
      SubscriptionRow.Loads false (t.withFeed r) a
  /-- Who subscribes to a list with the address in it holds the feed just once. -/
  list : ∀ (urls : List String) (user : Int) (size : Nat) (clock : Nat → Instant),
    url ∈ urls → (clock 0).InYears → ∃ answer t,
      (subscribeAll urls user size).runOn clock s = (.ok answer, t) ∧
        ∃! r, r ∈ t.subscriptions ∧ r.user = user ∧ r.feedId = some f

/-- **An address that leads to a feed leads every user to it.** -/
theorem Valid.converges (h : s.Valid) (hy : s.InYears) (hf : s.feedOf? url = some f) :
    s.Converges url f where
  held user clock hnow hholds := by
    have hsome := isSome_holder?.2 hholds
    have hends := subscribeEnds_runOn h hy clock hnow url user
    refine Prod.ext ((hends.error _).2 ⟨f, hf, hsome, rfl⟩) ?_
    rw [hends.store, Store.subscribed, hf]
    exact if_pos hsome
  free user clock hnow hfree := by
    have hends := subscribeEnds_runOn h hy clock hnow url user
    have hstore : ((subscribe url user).runOn clock s).2 =
        s.addSubscription (.bound user f url) (clock 0).stamp := by
      rw [hends.store, Store.subscribed, hf]
      exact if_neg (mt isSome_holder?.1 hfree)
    cases hresult : ((subscribe url user).runOn clock s).1 with
    | error e =>
      obtain ⟨f', hf', hsome, -⟩ := (hends.error e).1 hresult
      obtain rfl := Option.some.inj (hf.symm.trans hf')
      exact absurd (isSome_holder?.1 hsome) hfree
    | ok a =>
      obtain ⟨r, hrows, hloads⟩ := hends.ok a hresult
      rw [hstore] at hrows hloads
      have hr : (Planned.bound user f url).row (s.lastSubscriptionId + 1) (clock 0).stamp = r :=
        List.singleton_inj.1 (List.append_cancel_left hrows)
      subst hr
      exact ⟨a, _, _, Prod.ext hresult hstore, rfl, rfl, rfl, rfl, rfl, hloads⟩
  list urls user size clock hurl hnow := by
    obtain ⟨answer, t, hrun, hall⟩ := subscribesAll_runOn h hy clock hnow urls user size
    have ht : urls.eraseDups.foldl (Store.subscribed user (clock 0).stamp) s = t :=
      Except.ok.inj ((subscribeEach_eq h hy hnow user urls.eraseDups).symm.trans hall.each)
    have hvalid := ht ▸ h.foldl_subscribed user (Stamp.isWritten_stamp (clock 0)) urls.eraseDups
    have hholds : t.Holds user f :=
      ht ▸ holds_foldl_subscribed (.inl ⟨url, List.mem_eraseDups.2 hurl, hf⟩)
    exact ⟨answer, t, hrun, hvalid.existsUnique_of_holds hholds⟩

end Store

namespace Moment

/-! ## After a subscription is resolved -/

/-- A source that has been recorded last keeps its target until it is recorded again. -/
theorem lastTarget?_eq {m n : Moment} {source target : String}
    (hlast : m.recorded.getLast? = some (source, target))
    (hsame : (n.recorded.filter fun p => p.1 = source) =
      m.recorded.filter fun p => p.1 = source) : n.lastTarget? source = some target := by
  obtain ⟨earlier, hrecorded⟩ := List.getLast?_eq_some_iff.1 hlast
  rw [lastTarget?, hsame, hrecorded, List.filter_append]
  simp

/-- **Resolving leads every user to one feed.** When a subscription has been resolved it was unbound
before, and at every later moment, as long as nothing has been recorded for its address in between,
the feed that it has been bound to is the feed at the target, and the address leads every user to
that feed. -/
theorem resolve_converges {t : Instant} {m : Moment} (hm : (start t).Passes m) {id : Int}
    {target : String} {clock : Nat → Instant} {stop : Instant} (hclock : Shows m.time stop clock)
    {a : Subscription} (ha : ((Store.resolve id target).runOn clock m.store).1 = .ok a) :
    (∃ r ∈ m.store.subscriptions, r.id = id ∧ r.feedId = none ∧ a.url = r.url) ∧
    ∃ f, a.feedId = some f ∧ ∀ n : Moment, (m.after (.resolve id target) clock stop).Passes n →
      (n.recorded.filter fun p => p.1 = a.url) =
        ((m.after (.resolve id target) clock stop).recorded.filter fun p => p.1 = a.url) →
      n.store.InYears →
      (n.store.feedAt? target).map (·.id) = some f ∧ n.store.Converges a.url f := by
  have hsound := hm.sound (sound_start t)
  have hends : Store.ResolveEnds id target (fun _ => True) m.store
      ((Store.resolve id target).runOn clock m.store).2
      ((Store.resolve id target).runOn clock m.store).1 :=
    (Store.ensures_resolve_alone hsound.valid id target _).runOn_any clock
  obtain ⟨hrecorded, hunbound, row, hrow, rfl, hfeed⟩ := hends.ok a ha
  refine ⟨hunbound, row.id, hfeed, fun n hn hsame hy => ?_⟩
  have hproper : (Request.resolve id row.url).Proper := True.intro
  have hafter := hsound.after hproper True.intro hclock
  have hnsound := hn.sound hafter
  -- the feed is still there, at its address
  have hstore : (m.after (.resolve id row.url) clock stop).store =
      ((Store.resolve id row.url).runOn clock m.store).2 :=
    congrArg Prod.snd (Operation.runOn_map ..)
  obtain ⟨row', hrow', hid, hurl, -⟩ := (hn.extends hafter).feeds row (hstore ▸ hrow)
  have hat : (n.store.feedAt? row.url).map (·.id) = some row.id := by
    rw [hnsound.valid.feedAt?_eq_some.2 ⟨hrow', hurl⟩, Option.map_some, hid]
  refine ⟨hat, hnsound.valid.converges hy ?_⟩
  -- and it is where the address leads
  have htarget : (n.store.mapping? a.url).map (·.target) = some row.url := by
    rw [hnsound.target_eq hy.log]
    refine lastTarget?_eq ?_ hsame
    rw [Moment.after, hrecorded]
    simp
  obtain ⟨mapping, hmapping, hto⟩ := Option.map_eq_some_iff.1 htarget
  rw [Store.feedOf?, hmapping, Option.bind_some, hto, hat]

/-- A pending subscription is resolved, and another user subscribes to something else. -/
theorem resolve_converges_subscribingElsewhere : ∃ m n : Moment, ∃ a : Subscription,
    (start .epoch).Passes m ∧ Shows m.time .epoch (fun _ => .epoch) ∧
    ((Store.resolve 1 "http://a.com/rss.xml").runOn (fun _ => .epoch) m.store).1 = .ok a ∧
    (m.after (.resolve 1 "http://a.com/rss.xml") (fun _ => .epoch) .epoch).Passes n ∧
    n.store.InYears ∧ n.store.subscriptions.map (·.feedId) = [some 1, none] ∧
    a.feedId = some 1 ∧ n.store.Converges "http://a.com/" 1 := by
  let clock : Nat → Instant := fun _ => .epoch
  have hclock : Shows .epoch .epoch clock :=
    ⟨fun _ => Instant.le_refl _, fun _ => Instant.le_refl _, fun _ => Instant.le_refl _⟩
  let m : Moment := (start .epoch).after (.subscribe "http://a.com/" 1) clock .epoch
  let resolved : Moment := m.after (.resolve 1 "http://a.com/rss.xml") clock .epoch
  let n : Moment := resolved.after (.subscribe "http://b.com/" 2) clock .epoch
  have hm : (start .epoch).Passes m := .request .refl True.intro True.intro hclock
  have hn : resolved.Passes n := .request .refl True.intro True.intro hclock
  have hy : n.store.InYears := Store.inYears_of_decode (by decide +kernel)
  have hok : (((Store.resolve 1 "http://a.com/rss.xml").runOn clock m.store).1.map fun a =>
      (a.url, a.feedId)) = .ok ("http://a.com/", some 1) := by decide +kernel
  obtain ⟨a, ha, hvalues⟩ := map_eq_ok.1 hok
  obtain ⟨hurl, hfeed⟩ := Prod.mk.inj hvalues
  obtain ⟨-, f, hf, hlater⟩ := resolve_converges hm hclock ha
  obtain rfl := Option.some.inj (hfeed.symm.trans hf)
  have hconverges := (hlater n hn (by rw [hurl]; decide +kernel) hy).2
  exact ⟨m, n, a, hm, hclock, ha, hn, hy, by decide +kernel, hfeed, hurl ▸ hconverges⟩

end Moment

end Syndication
