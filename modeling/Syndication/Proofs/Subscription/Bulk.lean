import Syndication.Proofs.Program.System
import Syndication.Proofs.Store.Mappings
import Syndication.Proofs.Subscription.Plan
/-!
# Subscribing to a list of addresses

Subscribing to a list at once leaves the store that subscribing to its addresses one after another
leaves, and answers with the subscriptions that have come of it and those to the same feeds that the
user had, each once and as it is read afterwards (`System.subscribeAll_eq_subscribeEach`). This
needs instants in the years 0 to 9999; without them it can fail
(`System.subscribeAll_beyond_years`).
-/

namespace Syndication

namespace Store

variable {s t : Store} {user : Int} {urls : List String}

/-! ## Feeds found by their addresses -/

section Feeds

variable {targets : List String} {feeds : List Feed}

theorem mem_runFindFeedsAt {row : FeedRow} :
    row ∈ Call.runFindFeedsAt targets s ↔ row ∈ s.feeds ∧ row.url ∈ targets := by
  simp [Call.runFindFeedsAt]

theorem nodup_runFindFeedsAt {κ : Type} {key : FeedRow → κ} (h : (s.feeds.map key).Nodup) :
    ((Call.runFindFeedsAt targets s).map key).Nodup := by
  have hperm :=
    List.mergeSort_perm (s.feeds.filter fun f => f.url ∈ targets) fun a b => a.url ≤ b.url
  exact ((hperm.map key).nodup_iff).2 (h.sublist (List.filter_sublist.map _))

theorem Valid.findFeedsAt_load (h : s.Valid) (hy : s.InYears) (targets : List String) :
    ∃ feeds, (Call.runFindFeedsAt targets s).mapM (FeedRow.load false) = .ok feeds := by
  have hload : ∀ row ∈ Call.runFindFeedsAt targets s, ∃ f, row.load false = .ok f :=
    fun row hrow => h.feed_loads hy false (mem_runFindFeedsAt.1 hrow).1
  obtain ⟨feeds, hfeeds, -⟩ := exists_mapM_eq_ok hload
  exact ⟨feeds, hfeeds⟩

/-- Among the feeds found at addresses the one at an address is that of the store. -/
theorem Valid.find?_url (h : s.Valid)
    (hfeeds : (Call.runFindFeedsAt targets s).mapM (FeedRow.load false) = .ok feeds)
    {target : String} (htarget : target ∈ targets) :
    (feeds.find? fun f => f.url = target).map (·.id) = (s.feedAt? target).map (·.id) := by
  have hloaded := mapM_eq_ok.1 hfeeds
  cases hrow : s.feedAt? target with
  | none =>
    have hnone : feeds.find? (fun f => f.url = target) = none := by
      refine List.find?_eq_none.2 fun f hf hurl => ?_
      obtain ⟨row, hrow', hload⟩ := forall₂_right hloaded hf
      refine List.find?_eq_none.1 hrow row (mem_runFindFeedsAt.1 hrow').1 ?_
      rw [← (FeedRow.load_eq_ok.1 hload).url]
      exact hurl
    rw [hnone]
    rfl
  | some row =>
    obtain ⟨hmem, rfl⟩ := mem_of_feedAt? hrow
    obtain ⟨f, hf, hload⟩ := forall₂_left hloaded (mem_runFindFeedsAt.2 ⟨hmem, htarget⟩)
    have hloads := FeedRow.load_eq_ok.1 hload
    have hurls : (feeds.map (·.url)).Nodup := by
      rw [map_eq_of_forall₂ (hloaded.imp fun r f hf => (FeedRow.load_eq_ok.1 hf).url)]
      exact nodup_runFindFeedsAt h.feedUrls
    rw [(find?_key_eq_some hurls).2 ⟨hf, hloads.url⟩, Option.map_some, Option.map_some, hloads.id]

/-- The ids of the feeds found. -/
theorem Valid.mem_ids (h : s.Valid)
    (hfeeds : (Call.runFindFeedsAt targets s).mapM (FeedRow.load false) = .ok feeds) {id : Int} :
    id ∈ feeds.map (·.id) ↔ ∃ target ∈ targets, (s.feedAt? target).map (·.id) = some id := by
  rw [map_eq_of_forall₂ ((mapM_eq_ok.1 hfeeds).imp fun r f hf => (FeedRow.load_eq_ok.1 hf).id),
    List.mem_map]
  constructor
  · rintro ⟨row, hrow, rfl⟩
    obtain ⟨hmem, htarget⟩ := mem_runFindFeedsAt.1 hrow
    exact ⟨row.url, htarget, by rw [h.feedAt?_eq_some.2 ⟨hmem, rfl⟩, Option.map_some]⟩
  · rintro ⟨target, htarget, hid⟩
    obtain ⟨row, hrow, rfl⟩ := Option.map_eq_some_iff.1 hid
    obtain ⟨hmem, rfl⟩ := mem_of_feedAt? hrow
    exact ⟨row, mem_runFindFeedsAt.2 ⟨hmem, htarget⟩, rfl⟩

/-- A feed that has been found has been found as it is stored. -/
theorem Valid.find?_id (h : s.Valid)
    (hfeeds : (Call.runFindFeedsAt targets s).mapM (FeedRow.load false) = .ok feeds) {row : FeedRow}
    (hrow : row ∈ s.feeds) (hid : row.id ∈ feeds.map (·.id)) :
    ∃ f, row.load false = .ok f ∧ feeds.find? (fun f => f.id = row.id) = some f := by
  have hloaded := mapM_eq_ok.1 hfeeds
  obtain ⟨f, hf, hid⟩ := List.mem_map.1 hid
  obtain ⟨row', hrow', hload⟩ := forall₂_right hloaded hf
  have hsame := hid.symm.trans (FeedRow.load_eq_ok.1 hload).id
  obtain rfl := h.feed_eq_of_id hrow (mem_runFindFeedsAt.1 hrow').1 hsame
  have hids : (feeds.map (·.id)).Nodup := by
    rw [map_eq_of_forall₂ (hloaded.imp fun r f hf => (FeedRow.load_eq_ok.1 hf).id)]
    exact nodup_runFindFeedsAt h.feedIds
  exact ⟨f, hload, (find?_key_eq_some hids).2 ⟨hf, hid⟩⟩

end Feeds

/-! ## What the addresses lead to -/

/-- The targets to which addresses lead. -/
theorem Valid.mem_targets (h : s.Valid) {target : String} :
    target ∈ ((s.targetsOf urls).map (·.2)).eraseDups ↔
      ∃ url ∈ urls, (s.mapping? url).map (·.target) = some target := by
  rw [List.mem_eraseDups, List.mem_map]
  constructor
  · rintro ⟨⟨url, _⟩, hmem, rfl⟩
    exact ⟨url, h.mem_targetsOf.1 hmem⟩
  · rintro ⟨url, hmem⟩
    exact ⟨(url, target), h.mem_targetsOf.2 hmem, rfl⟩

section Found

variable {feeds : List Feed}

/-- The targets and feeds that have been found tell where an address leads. -/
theorem Valid.bind_lookup (h : s.Valid)
    (hfeeds : (Call.runFindFeedsAt ((s.targetsOf urls).map (·.2)).eraseDups s).mapM
      (FeedRow.load false) = .ok feeds) {url : String} (hurl : url ∈ urls) :
    ((s.targetsOf urls).lookup url).bind
      (fun target => (feeds.find? fun f => f.url = target).map (·.id)) = s.feedOf? url := by
  rw [h.lookup_targetsOf hurl, feedOf?]
  cases hm : s.mapping? url with
  | none => rfl
  | some m =>
    have htarget : m.target ∈ ((s.targetsOf urls).map (·.2)).eraseDups :=
      h.mem_targets.2 ⟨url, hurl, by rw [hm, Option.map_some]⟩
    rw [Option.map_some, Option.bind_some, Option.bind_some, h.find?_url hfeeds htarget]

/-- The feeds that have been found are those that the addresses lead to. -/
theorem Valid.mem_ids_iff_feedOf? (h : s.Valid)
    (hfeeds : (Call.runFindFeedsAt ((s.targetsOf urls).map (·.2)).eraseDups s).mapM
      (FeedRow.load false) = .ok feeds) {f : Int} :
    f ∈ feeds.map (·.id) ↔ ∃ url ∈ urls, s.feedOf? url = some f := by
  rw [h.mem_ids hfeeds]
  constructor
  · rintro ⟨target, htarget, hf⟩
    obtain ⟨url, hurl, hm⟩ := h.mem_targets.1 htarget
    obtain ⟨m, hmapping, rfl⟩ := Option.map_eq_some_iff.1 hm
    exact ⟨url, hurl, by rw [feedOf?, hmapping, Option.bind_some, hf]⟩
  · rintro ⟨url, hurl, hf⟩
    obtain ⟨m, hm, hf⟩ := Option.bind_eq_some_iff.1 hf
    exact ⟨m.target, h.mem_targets.2 ⟨url, hurl, by rw [hm, Option.map_some]⟩, hf⟩

end Found

/-! ## The new subscriptions -/

/-- A new row loads as the subscription that is answered with. -/
theorem load_row {feeds : List Feed} {now : Instant} {p : Planned} (hnow : now.InYears)
    (hfeed : ∀ f, p.feedId = some f → ∃ row value, t.feed? f = some row ∧
      row.load false = .ok value ∧ feeds.find? (fun f' => f'.id = f) = some value) (id : Int) :
    SubscriptionRow.load false (t.withFeed (p.row id now.stamp)) =
      .ok (inserted feeds now.truncate p id) := by
  have hstamp := Instant.decode_stamp hnow
  refine SubscriptionRow.load_eq_ok.2 ⟨rfl, rfl, rfl, rfl, rfl, rfl, rfl, hstamp, hstamp, ?_⟩
  change (p.feedId.bind t.feed?).elim
    (p.feedId.bind (fun f => feeds.find? fun f' => f'.id = f) = none) _
  cases hp : p.feedId with
  | none => rfl
  | some f =>
    obtain ⟨row, value, hrow, hload, hvalue⟩ := hfeed f hp
    rw [Option.bind_some, hrow]
    refine ⟨value, FeedRow.load_eq_ok.1 hload, ?_⟩
    rw [inserted, hp, Option.bind_some, hvalue]

/-- Outcomes that are all new. -/
theorem sortOutcomes_new {feeds : List Feed} {time : Instant} {stamp : String}
    {plan : List Planned} (last : Int) (hload : ∀ p ∈ plan, ∀ id,
      SubscriptionRow.load false (t.withFeed (p.row id stamp)) = .ok (inserted feeds time p id)) :
    ∃ created, sortOutcomes feeds time
        (plan.zip ((rowsFrom stamp last plan).map fun r => .new r.id)) = (created, []) ∧
      List.Forall₂ (fun r a => SubscriptionRow.load false (t.withFeed r) = .ok a)
        (rowsFrom stamp last plan) created := by
  induction plan generalizing last with
  | nil => exact ⟨[], rfl, .nil⟩
  | cons p plan ih =>
    obtain ⟨hp, hrest⟩ := List.forall_mem_cons.1 hload
    obtain ⟨created, hcreated, hrows⟩ := ih (last + 1) hrest
    refine ⟨inserted feeds time p (last + 1) :: created, ?_, .cons (hp _) hrows⟩
    simp [rowsFrom, sortOutcomes, hcreated, Planned.row]

/-! ## The answer -/

theorem dropRepeated_of_nodup {all : List Subscription} (h : (all.map (·.id)).Nodup) :
    dropRepeated all = all := by
  induction all with
  | nil => rfl
  | cons a all ih =>
    rw [List.map_cons, List.nodup_cons] at h
    rw [dropRepeated, ih h.2]
    cases all with
    | nil => rfl
    | cons b all =>
      have hne : a.id ≠ b.id := fun heq => h.1 (heq ▸ List.mem_cons_self)
      simp [hne]

theorem addressOrder_iff {a b : Subscription} :
    addressOrder a b = true ↔ a.url < b.url ∨ a.url = b.url ∧ a.id ≤ b.id := by
  simp [addressOrder]

theorem nodup_mergeSort {all : List Subscription} (h : (all.map (·.id)).Nodup) :
    ((all.mergeSort addressOrder).map (·.id)).Nodup :=
  (((List.mergeSort_perm all addressOrder).map (·.id)).nodup_iff).2 h

/-- Distinct subscriptions in the order of their addresses. -/
theorem sorted_of_nodup {all : List Subscription} (h : (all.map (·.id)).Nodup) :
    (all.mergeSort addressOrder).Pairwise fun a b =>
      a.url < b.url ∨ a.url = b.url ∧ a.id < b.id := by
  have htrans (a b c : Subscription) (hab : addressOrder a b = true)
      (hbc : addressOrder b c = true) : addressOrder a c = true := by
    rw [addressOrder_iff] at *
    rcases hab with hab | ⟨hab, hid⟩ <;> rcases hbc with hbc | ⟨hbc, hid'⟩
    · exact .inl (String.lt_trans hab hbc)
    · exact .inl (hbc ▸ hab)
    · exact .inl (hab ▸ hbc)
    · exact .inr ⟨hab.trans hbc, by omega⟩
  have htotal (a b : Subscription) : (addressOrder a b || addressOrder b a) = true := by
    rw [Bool.or_eq_true, addressOrder_iff, addressOrder_iff]
    by_cases hab : a.url < b.url
    · exact .inl (.inl hab)
    by_cases hba : b.url < a.url
    · exact .inr (.inl hba)
    have hurl : a.url = b.url := String.le_antisymm hba hab
    rcases Int.le_total a.id b.id with hid | hid
    · exact .inl (.inr ⟨hurl, hid⟩)
    · exact .inr (.inr ⟨hurl.symm, hid⟩)
  have hsorted := List.pairwise_mergeSort htrans htotal all
  refine (hsorted.and (List.pairwise_map.1 (nodup_mergeSort h))).imp fun {a b} hab => ?_
  rcases addressOrder_iff.1 hab.1 with hurl | ⟨hurl, hid⟩
  · exact .inl hurl
  · exact .inr ⟨hurl, Int.lt_iff_le_and_ne.2 ⟨hid, hab.2⟩⟩

/-! ## The operation -/

/-- What subscribing a user to a list of addresses has to leave and to answer with. -/
structure SubscribesAll (urls : List String) (user : Int) (now : Instant) (s t : Store)
    (answer : List Subscription) : Prop where
  /-- The store is the one that subscribing to one address after another leaves. -/
  each : subscribeEach now user urls.eraseDups s = .ok t
  sorted : answer.Pairwise fun a b => a.url < b.url ∨ a.url = b.url ∧ a.id < b.id
  ids : (answer.map (·.id)).Nodup
  /-- The new subscriptions, and those that the user had to feeds that the addresses lead to. -/
  mem : ∀ a, a ∈ answer ↔ ∃ r ∈ t.subscriptions,
    (r ∉ s.subscriptions ∨ r.user = user ∧ ∃ url ∈ urls, ∃ f,
      s.feedOf? url = some f ∧ r.feedId = some f) ∧
    (getSubscription r.id user false).runAt now t = (.ok a, t)

open Operation

theorem runAt_getSubscription (h : t.Valid) {r : SubscriptionRow} (hr : r ∈ t.subscriptions)
    (huser : r.user = user) (now : Instant) :
    (getSubscription r.id user false).runAt now t =
      (SubscriptionRow.load false (t.withFeed r), t) := by
  obtain rfl := huser
  rw [runAt_eq_runOn, runOn_getSubscription (h.subscription?_eq_some.2 ⟨hr, rfl⟩)]

/-- The answer is made of what has been held and of what is new. -/
theorem subscribesAll_of_rows {now : Instant} {all : List Subscription} {plan : List Planned}
    (old : List SubscriptionRow) (h : s.Valid) (ht : t.Valid)
    (heach : subscribeEach now user urls.eraseDups s = .ok t)
    (hrows : t.subscriptions = s.subscriptions ++ rowsFrom now.stamp s.lastSubscriptionId plan)
    (hplan : ∀ p ∈ plan, p.user = user)
    (hold : ∀ r, r ∈ old ↔ r ∈ s.subscriptions ∧ r.user = user ∧ ∃ url ∈ urls, ∃ f,
      s.feedOf? url = some f ∧ r.feedId = some f) (hnodup : (old.map (·.id)).Nodup)
    (hall : List.Forall₂ (fun r a => SubscriptionRow.load false (t.withFeed r) = .ok a)
      (old ++ rowsFrom now.stamp s.lastSubscriptionId plan) all) :
    SubscribesAll urls user now s t (dropRepeated (all.mergeSort addressOrder)) := by
  have hnew : ∀ r ∈ rowsFrom now.stamp s.lastSubscriptionId plan,
      r ∉ s.subscriptions ∧ r.user = user := by
    intro r hr
    obtain ⟨hlast, p, hp, heq⟩ := exists_planned_of_mem_rowsFrom hr
    refine ⟨fun hmem => ?_, heq ▸ hplan p hp⟩
    have := h.id_le r hmem
    omega
  have hmem (r : SubscriptionRow) : r ∈ old ++ rowsFrom now.stamp s.lastSubscriptionId plan ↔
      r ∈ t.subscriptions ∧ (r ∉ s.subscriptions ∨ r.user = user ∧ ∃ url ∈ urls, ∃ f,
        s.feedOf? url = some f ∧ r.feedId = some f) := by
    rw [hrows, List.mem_append, List.mem_append, hold]
    constructor
    · rintro (⟨hr, hheld⟩ | hr)
      · exact ⟨.inl hr, .inr hheld⟩
      · exact ⟨.inr hr, .inl (hnew r hr).1⟩
    · rintro ⟨hr | hr, hfresh | hheld⟩
      · exact absurd hr hfresh
      · exact .inl ⟨hr, hheld⟩
      · exact .inr hr
      · exact .inr hr
  have hids : (all.map (·.id)).Nodup := by
    rw [map_eq_of_forall₂ (hall.imp fun r a ha => (SubscriptionRow.load_eq_ok.1 ha).id)]
    change ((old ++ rowsFrom now.stamp s.lastSubscriptionId plan).map (·.id)).Nodup
    rw [List.map_append]
    refine List.nodup_append.2 ⟨hnodup, ?_, ?_⟩
    · exact ht.subscriptionIds.sublist (hrows ▸ (List.sublist_append_right _ _).map _)
    · intro i hi j hj heq
      obtain ⟨r, hr, rfl⟩ := List.mem_map.1 hi
      obtain ⟨r', hr', rfl⟩ := List.mem_map.1 hj
      have := h.id_le r ((hold r).1 hr).1
      have := (exists_planned_of_mem_rowsFrom hr').1
      omega
  rw [dropRepeated_of_nodup (nodup_mergeSort hids)]
  refine ⟨heach, sorted_of_nodup hids, nodup_mergeSort hids, fun a => ?_⟩
  rw [List.mem_mergeSort]
  constructor
  · intro ha
    obtain ⟨r, hr, hload⟩ := forall₂_right hall ha
    obtain ⟨hrt, hfresh⟩ := (hmem r).1 hr
    have huser : r.user = user := by
      rcases List.mem_append.1 hr with hr | hr
      · exact ((hold r).1 hr).2.1
      · exact (hnew r hr).2
    exact ⟨r, hrt, hfresh, by rw [runAt_getSubscription ht hrt huser, hload]⟩
  · rintro ⟨r, hrt, hfresh, hget⟩
    have hr := (hmem r).2 ⟨hrt, hfresh⟩
    have huser : r.user = user := by
      rcases List.mem_append.1 hr with hr | hr
      · exact ((hold r).1 hr).2.1
      · exact (hnew r hr).2
    obtain ⟨a', ha', hload⟩ := forall₂_left hall hr
    rw [runAt_getSubscription ht hrt huser, hload] at hget
    obtain rfl : a' = a := Except.ok.inj (congrArg Prod.fst hget)
    exact ha'

/-- Feeds stay where they are when their table does. -/
theorem withFeed_congr (h : t.feeds = s.feeds) (r : SubscriptionRow) :
    t.withFeed r = s.withFeed r := by
  have hfeed : t.feed? = s.feed? := by
    funext id
    rw [feed?, feed?, h]
  rw [withFeed, withFeed, hfeed]

/-- The feeds that count as held when a plan is made are those that the user holds. -/
theorem mem_filterMap_held {feeds : List Int} {held : List Subscription}
    (hheld : List.Forall₂ (fun r a => SubscriptionRow.load false (s.withFeed r) = .ok a)
      (s.heldRows user feeds) held) {f : Int} (hf : f ∈ feeds) :
    f ∈ held.filterMap (·.feedId) ↔ (s.holder? user f).isSome := by
  rw [List.mem_filterMap]
  constructor
  · rintro ⟨a, ha, hfeed⟩
    obtain ⟨r, hr, hload⟩ := forall₂_right hheld ha
    obtain ⟨hmem, huser, -⟩ := mem_heldRows.1 hr
    rw [(SubscriptionRow.load_eq_ok.1 hload).feedId] at hfeed
    exact List.find?_isSome.2 ⟨r, hmem, by simpa using ⟨huser, hfeed⟩⟩
  · intro hsome
    obtain ⟨r, hr⟩ := Option.isSome_iff_exists.1 hsome
    obtain ⟨hmem, huser, hfeed⟩ := mem_of_holder? hr
    obtain ⟨a, ha, hload⟩ := forall₂_left hheld (mem_heldRows.2 ⟨hmem, huser, f, hf, hfeed⟩)
    exact ⟨a, ha, (SubscriptionRow.load_eq_ok.1 hload).feedId.trans hfeed⟩

/-- What has been found leads to a plan that can be inserted and to the answer that is promised. -/
theorem subscribesAll_of_plan (h : s.Valid) (hy : s.InYears) {now : Instant} (hnow : now.InYears)
    (size : Nat) {feeds : List Feed} {held : List Subscription} {plan : List Planned}
    (hfeeds : (Call.runFindFeedsAt ((s.targetsOf urls).map (·.2)).eraseDups s).mapM
      (FeedRow.load false) = .ok feeds)
    (hheld : List.Forall₂ (fun r a => SubscriptionRow.load false (s.withFeed r) = .ok a)
      (s.heldRows user (feeds.map (·.id))) held)
    (hplan : plan = Planned.list user (fun url => (s.targetsOf urls).lookup url)
      (fun url => (feeds.find? fun f => f.url = url).map (·.id)) (held.filterMap (·.feedId)) urls) :
    ∃ outcomes t created, s.insertBatch plan size now.stamp = (.ok outcomes, t) ∧
      sortOutcomes feeds now.truncate (plan.zip outcomes) = (created, []) ∧
      SubscribesAll urls user now s t
        (dropRepeated ((held ++ created).mergeSort addressOrder)) := by
  have hvalid := h.foldl_subscribed user (Stamp.isWritten_stamp now) urls.eraseDups
  have heach := subscribeEach_eq h hy hnow user urls.eraseDups
  generalize ht : urls.eraseDups.foldl (subscribed user now.stamp) s = t at hvalid heach
  obtain ⟨hbatch, htfeeds, hrows⟩ := insertBatch_listFrom size hplan
    (fun url hurl => h.bind_lookup hfeeds hurl)
    (fun url hurl f hf => mem_filterMap_held hheld
      ((h.mem_ids_iff_feedOf? hfeeds).2 ⟨url, hurl, hf⟩)) ht.symm
  have hload : ∀ p ∈ plan, ∀ id, SubscriptionRow.load false (t.withFeed (p.row id now.stamp)) =
      .ok (inserted feeds now.truncate p id) := by
    intro p hp id
    refine load_row hnow (fun f hf => ?_) id
    obtain ⟨url, hurl, ⟨f', hf', rfl⟩ | rfl⟩ := Planned.mem_listFrom (hplan ▸ hp)
    · obtain rfl : f' = f := Option.some.inj hf
      rw [h.bind_lookup hfeeds hurl] at hf'
      obtain ⟨row, hrow, rfl⟩ := exists_of_feedOf? hf'
      obtain ⟨value, hvalue, hfound⟩ :=
        h.find?_id hfeeds hrow ((h.mem_ids_iff_feedOf? hfeeds).2 ⟨url, hurl, hf'⟩)
      refine ⟨row, value, ?_, hvalue, hfound⟩
      rw [feed?, htfeeds]
      exact h.feed?_eq_some.2 ⟨hrow, rfl⟩
    · cases hf
  obtain ⟨created, hsort, hcreated⟩ := sortOutcomes_new s.lastSubscriptionId hload
  refine ⟨_, t, created, hbatch, hsort, subscribesAll_of_rows (s.heldRows user (feeds.map (·.id)))
    h hvalid heach hrows (fun p hp => ?_) (fun r => ?_) (h.nodup_heldRows user _) ?_⟩
  · obtain ⟨url, -, ⟨f, -, rfl⟩ | rfl⟩ := Planned.mem_listFrom (hplan ▸ hp)
    · rfl
    · rfl
  · rw [mem_heldRows]
    refine and_congr_right fun _ => and_congr_right fun _ => ?_
    constructor
    · rintro ⟨f, hf, hfeed⟩
      obtain ⟨url, hurl, hleads⟩ := (h.mem_ids_iff_feedOf? hfeeds).1 hf
      exact ⟨url, hurl, f, hleads, hfeed⟩
    · rintro ⟨url, hurl, f, hleads, hfeed⟩
      exact ⟨f, (h.mem_ids_iff_feedOf? hfeeds).2 ⟨url, hurl, hleads⟩, hfeed⟩
  · refine List.rel_append (hheld.imp fun r a hload => ?_) hcreated
    rwa [withFeed_congr htfeeds]

/-- **Subscribing to a list** does what is promised of it. -/
theorem ensures_subscribeAll_alone (h : s.Valid) (hy : s.InYears) {clock : Nat → Instant}
    (hnow : (clock 0).InYears) (urls : List String) (user : Int) (size : Nat) :
    (subscribeAll urls user size).Ensures .timed (fun _ _ => True)
      (fun x r => ∃ answer, r = .ok answer ∧ SubscribesAll urls user (clock 0) s x.1 answer)
      (s, clock) := by
  refine ensures_subscribeAll.2 ?_
  split
  · next hempty =>
    obtain rfl := List.isEmpty_iff.1 hempty
    refine ⟨[], rfl, rfl, .nil, .nil, ?_⟩
    simp +contextual
  refine ⟨True.intro, ?_⟩
  rintro targets _ ⟨htargets, rfl⟩
  obtain rfl : s.targetsOf urls = targets := htargets
  refine ⟨True.intro, ?_⟩
  rintro rows _ ⟨hrows, rfl⟩
  obtain rfl : Call.runFindFeedsAt ((s.targetsOf urls).map (·.2)).eraseDups s = rows := hrows
  obtain ⟨feeds, hfeeds⟩ := h.findFeedsAt_load hy ((s.targetsOf urls).map (·.2)).eraseDups
  rw [hfeeds]
  refine ⟨True.intro, ?_⟩
  rintro rows _ ⟨hrows, rfl⟩
  obtain rfl : Call.runSubscriptionsTo user (feeds.map (·.id)) s = rows := hrows
  obtain ⟨held, hheld⟩ := h.subscriptionsTo_load hy user (feeds.map (·.id))
  rw [hheld]
  rw [runSubscriptionsTo_eq, mapM_eq_ok, List.forall₂_map_left_iff] at hheld
  dsimp only
  generalize hplan : Planned.list _ _ _ _ _ = plan
  obtain ⟨outcomes, t, created, hbatch, hsort, hall⟩ :=
    subscribesAll_of_plan h hy hnow size hfeeds hheld hplan.symm
  refine ensures_subscribePlanned.2 ?_
  rintro _ _ ⟨rfl, rfl⟩
  refine ⟨True.intro, ?_⟩
  rintro outcome ⟨t', _⟩ ⟨houtcome, hleft⟩
  have hrun : (Call.insertBatch plan size (clock 0).truncate.stamp).run s = (.ok outcomes, t) := by
    rwa [Instant.stamp_truncate]
  obtain rfl : .ok outcomes = outcome := (congrArg Prod.fst hrun).symm.trans houtcome
  obtain rfl : t = t' := (congrArg Prod.snd hrun).symm.trans (Prod.mk.inj hleft).1
  dsimp only
  rw [hsort]
  exact ⟨_, rfl, hall⟩

theorem subscribesAll_runOn (h : s.Valid) (hy : s.InYears) (clock : Nat → Instant)
    (hnow : (clock 0).InYears) (urls : List String) (user : Int) (size : Nat) :
    ∃ answer t, (subscribeAll urls user size).runOn clock s = (.ok answer, t) ∧
      SubscribesAll urls user (clock 0) s t answer := by
  obtain ⟨answer, hanswer, hall⟩ := @Ensures.runOn_timed _ _
    (fun t r => ∃ answer, r = .ok answer ∧ SubscribesAll urls user (clock 0) s t answer) _ _ _
    (ensures_subscribeAll_alone h hy hnow urls user size)
  exact ⟨answer, _, Prod.ext hanswer rfl, hall⟩

end Store

namespace System

/-! ## Lists against one after another -/

/-- A user holds a feed to which two addresses lead. -/
def holding : List Action :=
  [.start (.getOrCreateFeed "http://a.com/rss.xml"), .read 0 .epoch, .call 0,
    .start (.recordMapping "http://a.com/" "http://a.com/rss.xml"), .read 1 .epoch, .call 1,
    .start (.recordMapping "http://a.org/" "http://a.com/rss.xml"), .read 2 .epoch, .call 2,
    .start (.subscribe "http://a.com/" 1), .call 3, .call 3, .call 3, .read 3 .epoch, .call 3]

theorem proper_holding : ∀ a ∈ holding, a.Proper := by
  simp [holding, Action.Proper, Request.Proper]

/-- **Subscribing to a list is subscribing one after another**: alone with a store that can be
reached and a clock that stands still, it leaves the store that its distinct addresses leave one
after another, and answers with the new subscriptions and those to the same feeds that the user had,
sorted and as they are read afterwards. -/
theorem subscribeAll_eq_subscribeEach {x : System} (hx : x.Reachable) (hy : x.store.InYears)
    {now : Instant} (hnow : now.InYears) (urls : List String) (user : Int) (size : Nat) :
    ∃ t answer, (Store.subscribeAll urls user size).runAt now x.store = (.ok answer, t) ∧
      Store.SubscribesAll urls user now x.store t answer := by
  obtain ⟨answer, t, hrun, hall⟩ :=
    Store.subscribesAll_runOn hx.sound.valid hy (fun _ => now) hnow urls user size
  exact ⟨t, answer, (Operation.runAt_eq_runOn ..).trans hrun, hall⟩

/-- A list with an address twice, one that is not known and two that lead to a feed that is held. -/
theorem subscribeAll_eq_subscribeEach_holding : ∃ x : System, x.Reachable ∧ x.store.InYears ∧
    Instant.epoch.InYears ∧ x.store.subscriptions.map (·.feedId) = [some 1] ∧
    ∃ t answer, (Store.subscribeAll
        ["http://b.com/", "http://a.org/", "http://b.com/", "http://a.com/"] 1 0).runAt .epoch
          x.store = (.ok answer, t) ∧
      Store.SubscribesAll ["http://b.com/", "http://a.org/", "http://b.com/", "http://a.com/"] 1
        .epoch x.store t answer := by
  let stamp : String := "1970-01-01T00:00:00.000000Z"
  let s : Store :=
    ⟨[Call.newFeed 1 "http://a.com/rss.xml" stamp], [],
      [⟨1, "http://a.com/", "http://a.com/rss.xml", stamp⟩,
        ⟨2, "http://a.org/", "http://a.com/rss.xml", stamp⟩],
      [⟨1, 1, some 1, "ready", "http://a.com/", none, 0, stamp, stamp⟩], 1⟩
  have hplay : (initial.play holding).map (·.store) = some s := by decide +kernel
  obtain ⟨x, hx, hstore⟩ := Option.map_eq_some_iff.1 hplay
  have hreachable : x.Reachable := runs_of_play proper_holding hx
  have hy : x.store.InYears := hstore ▸ Store.inYears_of_decode (by decide +kernel)
  have hnow : Instant.epoch.InYears := by decide +kernel
  exact ⟨x, hreachable, hy, hnow, by rw [hstore]; rfl,
    subscribeAll_eq_subscribeEach hreachable hy hnow _ 1 0⟩

/-! ## Beyond the years -/

/-- A feed has been created after the year 9999, and an address leads to it. -/
def feedAfterYears : List Action :=
  [.start (.getOrCreateFeed "http://b.com/rss.xml"), .read 0 afterYears, .call 0,
    .start (.recordMapping "http://b.com/" "http://b.com/rss.xml"), .read 1 .epoch, .call 1]

theorem proper_feedAfterYears : ∀ a ∈ feedAfterYears, a.Proper := by
  simp [feedAfterYears, Action.Proper, Request.Proper]

/-- After the year 9999 a list is answered with a subscription that cannot be read. And where an
address leads to a feed that was created then the list leaves the store as it is, although another
of its addresses alone adds a subscription. -/
theorem subscribeAll_beyond_years :
    (∃ x : System, ∃ t a, x.Reachable ∧
      (Store.subscribeAll ["http://a.com/"] 1 1).runAt afterYears x.store = (.ok [a], t) ∧
      ∀ b, (Store.getSubscription a.id 1 false).runAt afterYears t ≠ (.ok b, t)) ∧
    ∃ x : System, x.Reachable ∧
      ((Store.subscribeAll ["http://a.com/", "http://b.com/"] 1 1).runAt .epoch x.store).2 =
        x.store ∧
      ∃ t a, (Store.subscribe "http://a.com/" 1).runAt .epoch x.store = (.ok a, t) ∧
        t ≠ x.store := by
  constructor
  · let a : Subscription :=
      ⟨1, 1, none, .pending, "http://a.com/", none, 0, afterYears, afterYears, none⟩
    let stamp : String := "+10000-01-01T00:00:00.000000Z"
    let row : SubscriptionRow := ⟨1, 1, none, "pending", "http://a.com/", none, 0, stamp, stamp⟩
    let t : Store := ⟨[], [], [], [row], 1⟩
    have hread : ((Store.getSubscription a.id 1 false).runAt afterYears t).1.toBool = false := by
      decide +kernel
    refine ⟨initial, t, a, .refl, by decide +kernel, fun b hb => ?_⟩
    rw [hb] at hread
    cases hread
  · let s : Store :=
      ⟨[Call.newFeed 1 "http://b.com/rss.xml" "+10000-01-01T00:00:00.000000Z"], [],
        [⟨1, "http://b.com/", "http://b.com/rss.xml", "1970-01-01T00:00:00.000000Z"⟩], [], 0⟩
    let a : Subscription := ⟨1, 1, none, .pending, "http://a.com/", none, 0, .epoch, .epoch, none⟩
    let stamp : String := "1970-01-01T00:00:00.000000Z"
    let t : Store :=
      { s with
        subscriptions := [⟨1, 1, none, "pending", "http://a.com/", none, 0, stamp, stamp⟩]
        lastSubscriptionId := 1 }
    have hplay : (initial.play feedAfterYears).map (·.store) = some s := by decide +kernel
    obtain ⟨x, hx, hstore⟩ := Option.map_eq_some_iff.1 hplay
    refine ⟨x, runs_of_play proper_feedAfterYears hx, ?_, t, a, ?_, ?_⟩
    · rw [hstore]
      decide +kernel
    · rw [hstore]
      decide +kernel
    · rw [hstore]
      decide +kernel

end System

end Syndication
