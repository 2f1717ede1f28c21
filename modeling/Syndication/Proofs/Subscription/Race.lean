import Syndication.Proofs.Program.Shared
import Syndication.Proofs.Subscription.Bulk
import Syndication.Proofs.Subscription.Planning
/-!
# Subscribing to a list among others

The plan of a list is made of what has been read some calls ago; by the time that it is inserted
others may have inserted, bound or deleted subscriptions. What others cannot do is to take a feed
away, to give an id again or to give a subscription another feed. So every row of a plan can be
inserted, or stands for the row that others have inserted for its feed (`Store.insertBatch_among`),
and the records answered with, which come from three different stores, are for different rows and
different feeds (`Store.AnswerParts`). `System.subscribeAll_survives_races` says so of every run
whose instants stay in the years 0 to 9999.
-/

namespace Syndication

/-- The id of the row that a planned row stands for. -/
def Inserted.id : Inserted → Int
  | .new id => id
  | .existing id _ => id

namespace Store

variable {s t : Store} {stamp : String} {user f : Int} {plan : List Planned}
  {outcomes : List Inserted}

/-! ## Rows that others may hold -/

/-- The rows that planned rows have become that are new. -/
def newRows (stamp : String) (settled : List (Planned × Inserted)) : List SubscriptionRow :=
  settled.filterMap fun (p, o) =>
    match o with
    | .new id => some (p.row id stamp)
    | .existing _ _ => none

theorem mem_newRows {settled : List (Planned × Inserted)} {r : SubscriptionRow} :
    r ∈ newRows stamp settled ↔ ∃ p id, (p, .new id) ∈ settled ∧ p.row id stamp = r := by
  simp only [newRows, List.mem_filterMap, Prod.exists]
  constructor
  · rintro ⟨p, o, hmem, hrow⟩
    cases o with
    | new id => exact ⟨p, id, hmem, Option.some.inj hrow⟩
    | existing id f => cases hrow
  · rintro ⟨p, id, hmem, rfl⟩
    exact ⟨p, _, hmem, rfl⟩

/-- What becomes of a planned row in a store: a new row, under an id that has not been given, or the
row by which its user holds its feed. -/
inductive Settles (s : Store) (p : Planned) : Inserted → Prop
  | new {id : Int} (hlast : s.lastSubscriptionId < id)
      (hfree : ∀ f, p.feedId = some f → s.holder? p.user f = none) : Settles s p (.new id)
  | existing {f : Int} {r : SubscriptionRow} (hfeed : p.feedId = some f)
      (hheld : s.holder? p.user f = some r) : Settles s p (.existing r.id f)

/-- A new row changes nothing for feeds that it does not name. -/
theorem holder?_addSubscription {p : Planned} (hf : p.feedId ≠ some f) :
    (s.addSubscription p stamp).holder? user f = s.holder? user f := by
  unfold holder? addSubscription
  rw [List.find?_append]
  simp [hf]

theorem Settles.of_addSubscription {p q : Planned} {o : Inserted} (hpq : p.Apart q)
    (h : (s.addSubscription p stamp).Settles q o) : s.Settles q o := by
  have hother (f : Int) (hq : q.feedId = some f) : p.feedId ≠ some f :=
    fun hp => hpq.2 f hp hq
  cases h with
  | new hlast hfree =>
    refine .new ((s.extends_addSubscription p stamp).lastId_le.trans_lt hlast) fun f hq => ?_
    rw [← hfree f hq, holder?_addSubscription (hother f hq)]
  | existing hq hheld =>
    exact .existing hq (by rwa [holder?_addSubscription (hother _ hq)] at hheld)

/-- **A plan is inserted whoever holds its feeds**: rows that are apart and name feeds that exist
settle one by one as they would alone. -/
theorem insertChunk_settles (stamp : String)
    (hknown : ∀ p ∈ plan, ∀ f, p.feedId = some f → ∃ row ∈ s.feeds, row.id = f)
    (hapart : plan.Pairwise Planned.Apart) : ∃ outcomes t,
      insertChunk stamp s plan = some (outcomes, t) ∧
      t.subscriptions = s.subscriptions ++ newRows stamp (plan.zip outcomes) ∧
      List.Forall₂ s.Settles plan outcomes := by
  induction plan generalizing s with
  | nil => exact ⟨[], s, rfl, by simp [newRows], .nil⟩
  | cons p plan ih =>
    obtain ⟨hpknown, hknown⟩ := List.forall_mem_cons.1 hknown
    obtain ⟨hpapart, hapart⟩ := List.pairwise_cons.1 hapart
    -- the row is new
    have added (hinsert : insertRow stamp s p =
          some (.new (s.lastSubscriptionId + 1), s.addSubscription p stamp))
        (hfree : ∀ f, p.feedId = some f → s.holder? p.user f = none) : ∃ outcomes t,
          insertChunk stamp s (p :: plan) = some (outcomes, t) ∧
          t.subscriptions = s.subscriptions ++ newRows stamp ((p :: plan).zip outcomes) ∧
          List.Forall₂ s.Settles (p :: plan) outcomes := by
      obtain ⟨outcomes, t, hchunk, hrows, hsettles⟩ :=
        ih (s := s.addSubscription p stamp) hknown hapart
      refine ⟨_, t, insertChunk_cons hinsert hchunk, ?_, .cons (.new (Int.lt_succ _) hfree) ?_⟩
      · rw [hrows]
        exact List.append_assoc _ _ _
      · exact ((List.forall₂_and_left _ _).2 ⟨hpapart, hsettles⟩).imp fun q o h =>
          h.2.of_addSubscription h.1
    cases hp : p.feedId with
    | none => exact added (by simp [insertRow, hp]) fun f hf => by rw [hp] at hf; cases hf
    | some f =>
      cases hheld : s.holder? p.user f with
      | none =>
        obtain ⟨row, hrow, hid⟩ := hpknown f hp
        have hfeed : (s.feed? f).isSome := List.find?_isSome.2 ⟨row, hrow, by simpa using hid⟩
        refine added (by simp [insertRow, hp, hheld, hfeed]) fun f' hf' => ?_
        obtain rfl := Option.some.inj (hp.symm.trans hf')
        exact hheld
      | some r =>
        obtain ⟨outcomes, t, hchunk, hrows, hsettles⟩ := ih hknown hapart
        exact ⟨.existing r.id f :: outcomes, t,
          insertChunk_cons (by simp [insertRow, hp, hheld]) hchunk, hrows,
          .cons (.existing hp hheld) hsettles⟩

/-- A plan that can be inserted into a store, whoever holds its feeds. -/
structure Insertable (s : Store) (user : Int) (plan : List Planned) : Prop where
  user : ∀ p ∈ plan, p.user = user
  known : ∀ p ∈ plan, ∀ f, p.feedId = some f → ∃ row ∈ s.feeds, row.id = f
  apart : plan.Pairwise Planned.Apart

theorem Insertable.later (h : s.Insertable user plan) (hs : s.Extends t) :
    t.Insertable user plan :=
  ⟨h.user, fun p hp f hf => hs.feed (h.known p hp f hf), h.apart⟩

/-- What inserting a plan among others does. -/
structure InsertsAmong (s t : Store) (user : Int) (stamp : String) (plan : List Planned)
    (outcomes : List Inserted) : Prop where
  settles : List.Forall₂ s.Settles plan outcomes
  /-- The rows that were there stay as they are. -/
  rows : t.subscriptions = s.subscriptions ++ newRows stamp (plan.zip outcomes)
  pending : ∀ p ∈ plan, p.feedId = none →
    ∃! r, r ∈ newRows stamp (plan.zip outcomes) ∧ r.url = p.url
  bound : ∀ p ∈ plan, ∀ f, p.feedId = some f →
    ∃! r, r ∈ t.subscriptions ∧ r.user = user ∧ r.feedId = some f

/-- The outcomes of a plan that is apart differ by address and by feed. -/
theorem eq_of_apart {settled : List (Planned × Inserted)}
    (h : settled.Pairwise fun q q' => q.1.Apart q'.1) {q q' : Planned × Inserted}
    (hq : q ∈ settled) (hq' : q' ∈ settled)
    (hsame : q.1.url = q'.1.url ∨ ∃ f, q.1.feedId = some f ∧ q'.1.feedId = some f) : q = q' := by
  have : Std.Symm fun q q' : Planned × Inserted => q.1.Apart q'.1 :=
    ⟨fun q q' hapart => ⟨hapart.1.symm, fun f hf hf' => hapart.2 f hf' hf⟩⟩
  by_contra hne
  obtain ⟨hurl, hfeed⟩ := h.forall hq hq' hne
  rcases hsame with hsame | ⟨f, hf, hf'⟩
  · exact hurl hsame
  · exact hfeed f hf hf'

section Settled

variable (hsettles : List.Forall₂ s.Settles plan outcomes)

include hsettles

theorem map_fst_settled : (plan.zip outcomes).map (·.1) = plan :=
  List.map_fst_zip hsettles.length_eq.le

theorem exists_settled {p : Planned} (hp : p ∈ plan) : ∃ o, (p, o) ∈ plan.zip outcomes := by
  rw [← map_fst_settled hsettles] at hp
  obtain ⟨⟨_, o⟩, hmem, rfl⟩ := List.mem_map.1 hp
  exact ⟨o, hmem⟩

theorem settles_of_mem {q : Planned × Inserted} (hq : q ∈ plan.zip outcomes) :
    s.Settles q.1 q.2 :=
  (List.forall₂_iff_zip.1 hsettles).2 hq

theorem apart_settled (hapart : plan.Pairwise Planned.Apart) :
    (plan.zip outcomes).Pairwise fun q q' => q.1.Apart q'.1 := by
  rw [← map_fst_settled hsettles] at hapart
  exact List.pairwise_map.1 hapart

end Settled

/-- **Inserting a plan among others** in chunks of any size never fails. -/
theorem insertBatch_among (hplan : s.Insertable user plan) (size : Nat) (stamp : String)
    (ht : (s.insertBatch plan size stamp).2.Valid) :
    ∃ outcomes t, s.insertBatch plan size stamp = (.ok outcomes, t) ∧
      s.InsertsAmong t user stamp plan outcomes := by
  obtain ⟨outcomes, t, hchunk, hrows, hsettles⟩ :=
    insertChunk_settles stamp hplan.known hplan.apart
  have hbatch : s.insertBatch plan size stamp = (.ok outcomes, t) :=
    insertChunks_of_chunk size [] hchunk
  rw [hbatch] at ht
  refine ⟨outcomes, t, hbatch, hsettles, hrows, fun p hp hnone => ?_, fun p hp f hf => ?_⟩
  · obtain ⟨o, hmem⟩ := exists_settled hsettles hp
    cases settles_of_mem hsettles hmem with
    | existing hfeed => rw [hnone] at hfeed; cases hfeed
    | @new id =>
      refine ⟨p.row id stamp, ⟨mem_newRows.2 ⟨p, id, hmem, rfl⟩, rfl⟩, ?_⟩
      rintro _ ⟨hr, hurl⟩
      obtain ⟨q, id', hmem', rfl⟩ := mem_newRows.1 hr
      cases eq_of_apart (apart_settled hsettles hplan.apart) hmem' hmem (.inl hurl)
      rfl
  · refine ht.existsUnique_of_holds ?_
    obtain ⟨o, hmem⟩ := exists_settled hsettles hp
    cases settles_of_mem hsettles hmem with
    | @new id =>
      refine ⟨p.row id stamp, ?_, hplan.user p hp, hf⟩
      rw [hrows]
      exact List.mem_append_right _ (mem_newRows.2 ⟨p, id, hmem, rfl⟩)
    | existing hfeed hheld =>
      obtain ⟨hr, huser, hfeed'⟩ := mem_of_holder? hheld
      obtain rfl := Option.some.inj (hf.symm.trans hfeed)
      exact ⟨_, hrows ▸ List.mem_append_left _ hr, huser.trans (hplan.user p hp), hfeed'⟩

/-! ## The answer -/

/-- What planned rows have come to, as it is answered with. -/
theorem sortOutcomes_eq (feeds : List Feed) (time : Instant) (settled : List (Planned × Inserted)) :
    sortOutcomes feeds time settled =
      (settled.filterMap fun (p, o) =>
          match o with
          | .new id => some (inserted feeds time p id)
          | .existing _ _ => none,
        settled.filterMap fun (_, o) =>
          match o with
          | .new _ => none
          | .existing id _ => some id) := by
  induction settled with
  | nil => rfl
  | cons q settled ih =>
    obtain ⟨p, o⟩ := q
    cases o <;> simp [sortOutcomes, ih]

/-- What an answer is made of: records of what the user held in an earlier store `s₀`, of what has
been inserted into `s`, and of what others had inserted there. -/
structure AnswerParts (s₀ : Store) (user : Int) (settled : List (Planned × Inserted))
    (held created winners : List Subscription) : Prop where
  ofHeld : ∀ a ∈ held, ∃ r ∈ s₀.subscriptions, r.user = user ∧ a.id = r.id ∧ a.feedId = r.feedId ∧
    r.feedId.isSome
  heldIds : (held.map (·.id)).Nodup
  /-- Nothing is planned for a feed that the user held. -/
  fresh : ∀ q ∈ settled, ∀ f, q.1.feedId = some f → ∀ a ∈ held, a.feedId ≠ some f
  ofCreated : ∀ a ∈ created, ∃ q ∈ settled, q.2 = .new a.id ∧ a.feedId = q.1.feedId
  createdIds : (created.map (·.id)).Nodup
  ofWinners : ∀ a ∈ winners, ∃ q ∈ settled, ∃ f, q.2 = .existing a.id f ∧ a.feedId = q.1.feedId
  winnersIds : (winners.map (·.id)).Nodup

namespace AnswerParts

variable {s₀ : Store} {held created winners : List Subscription}

/-- No id is answered with twice: ids that are new have not been given before, and the rows that
others had inserted are for other feeds than those that the user held. -/
theorem ids (h : AnswerParts s₀ user (plan.zip outcomes) held created winners)
    (hsettles : List.Forall₂ s.Settles plan outcomes) (h₀ : s₀.Valid) (hs : s.Valid)
    (hextends : s₀.Extends s) : ((held ++ created ++ winners).map (·.id)).Nodup := by
  have old {a : Subscription} (ha : a ∈ held) : a.id ≤ s.lastSubscriptionId := by
    obtain ⟨r, hr, -, hid, -⟩ := h.ofHeld a ha
    exact hid ▸ (h₀.id_le r hr).trans hextends.lastId_le
  have new {a : Subscription} (ha : a ∈ created) : s.lastSubscriptionId < a.id := by
    obtain ⟨q, hq, hnew, -⟩ := h.ofCreated a ha
    have hsettled := settles_of_mem hsettles hq
    rw [hnew] at hsettled
    cases hsettled with
    | new hlast => exact hlast
  have raced {a : Subscription} (ha : a ∈ winners) : ∃ r ∈ s.subscriptions, ∃ q ∈ plan.zip outcomes,
      ∃ f, r.id = a.id ∧ r.feedId = some f ∧ q.1.feedId = some f := by
    obtain ⟨q, hq, f, hexisting, -⟩ := h.ofWinners a ha
    have hsettled := settles_of_mem hsettles hq
    rw [hexisting] at hsettled
    generalize a.id = id at hsettled
    cases hsettled with
    | existing hfeed hheld =>
      obtain ⟨hr, -, hf⟩ := mem_of_holder? hheld
      exact ⟨_, hr, q, hq, f, rfl, hf, hfeed⟩
  simp only [List.map_append]
  refine List.nodup_append.2 ⟨List.nodup_append.2 ⟨h.heldIds, h.createdIds, ?_⟩, h.winnersIds, ?_⟩
  · rintro _ hi _ hj rfl
    obtain ⟨a, ha, rfl⟩ := List.mem_map.1 hi
    obtain ⟨b, hb, hid⟩ := List.mem_map.1 hj
    have := old ha
    have := new hb
    omega
  · rintro _ hi _ hj rfl
    obtain ⟨b, hb, rfl⟩ := List.mem_map.1 hj
    obtain ⟨r, hr, q, hq, f, hid, hf, hqf⟩ := raced hb
    rcases List.mem_append.1 hi with hi | hi
    · obtain ⟨a, ha, hsame⟩ := List.mem_map.1 hi
      obtain ⟨r₀, hr₀, -, hid₀, hfeed₀, hsome⟩ := h.ofHeld a ha
      obtain ⟨g, hg⟩ := Option.isSome_iff_exists.1 hsome
      have hlives := hextends.lives h₀ hr₀ hr (by rw [hid, ← hsame, hid₀])
      obtain rfl := Option.some.inj (hf.symm.trans (hlives.feedId g hg))
      exact h.fresh q hq f hqf a ha (hfeed₀.trans hg)
    · obtain ⟨a, ha, hsame⟩ := List.mem_map.1 hi
      have := new ha
      have := hs.id_le r hr
      omega

/-- Records of one feed are one record. -/
theorem id_eq_of_feed (h : AnswerParts s₀ user (plan.zip outcomes) held created winners)
    (hsettles : List.Forall₂ s.Settles plan outcomes) (hapart : plan.Pairwise Planned.Apart)
    (h₀ : s₀.Valid) {a b : Subscription} (ha : a ∈ held ++ created ++ winners)
    (hb : b ∈ held ++ created ++ winners) {f : Int} (haf : a.feedId = some f)
    (hbf : b.feedId = some f) : a.id = b.id := by
  have parts {a : Subscription} (ha : a ∈ held ++ created ++ winners) : a ∈ held ∨
      ∃ q ∈ plan.zip outcomes, a.id = q.2.id ∧ a.feedId = q.1.feedId := by
    rcases List.mem_append.1 ha with ha | ha
    · refine (List.mem_append.1 ha).imp_right fun ha => ?_
      obtain ⟨q, hq, hnew, hfeed⟩ := h.ofCreated a ha
      exact ⟨q, hq, by rw [hnew]; rfl, hfeed⟩
    · obtain ⟨q, hq, f, hexisting, hfeed⟩ := h.ofWinners a ha
      exact .inr ⟨q, hq, by rw [hexisting]; rfl, hfeed⟩
  rcases parts ha with ha | ⟨q, hq, hid, hfeed⟩ <;>
    rcases parts hb with hb | ⟨q', hq', hid', hfeed'⟩
  · obtain ⟨r, hr, huser, hid, hfeed, -⟩ := h.ofHeld a ha
    obtain ⟨r', hr', huser', hid', hfeed', -⟩ := h.ofHeld b hb
    rw [hid, hid', h₀.holders r hr r' hr' f (huser.trans huser'.symm) (hfeed.symm.trans haf)
      (hfeed'.symm.trans hbf)]
  · exact absurd haf (h.fresh q' hq' f (hfeed'.symm.trans hbf) a ha)
  · exact absurd hbf (h.fresh q hq f (hfeed.symm.trans haf) b hb)
  · rw [hid, hid', eq_of_apart (apart_settled hsettles hapart) hq hq'
      (.inr ⟨f, hfeed.symm.trans haf, hfeed'.symm.trans hbf⟩)]

end AnswerParts

/-- What a request to subscribe to a list answers with, after what it has seen. -/
structure AnswersAmong (past : List Event) (answer : List Subscription) : Prop where
  sorted : answer.Pairwise fun a b => a.url < b.url ∨ a.url = b.url ∧ a.id < b.id
  ids : (answer.map (·.id)).Nodup
  feeds : (answer.filterMap (·.feedId)).Nodup
  /-- Every row that the request has inserted is answered with. -/
  new : ∀ plan size stamp outcomes,
    .called (.insertBatch plan size stamp) (.ok outcomes) ∈ past →
    ∀ r ∈ newRows stamp (plan.zip outcomes), ∃ a ∈ answer,
      SubscriptionRow.Loads false (r, none) { a with feed := none }

/-- The parts make up an answer when nothing besides the plan has been inserted. -/
theorem AnswerParts.answersAmong {s₀ : Store} {held created winners : List Subscription}
    {past : List Event} (h : AnswerParts s₀ user (plan.zip outcomes) held created winners)
    (hsettles : List.Forall₂ s.Settles plan outcomes) (hapart : plan.Pairwise Planned.Apart)
    (h₀ : s₀.Valid) (hs : s.Valid) (hextends : s₀.Extends s)
    (hnew : ∀ r ∈ newRows stamp (plan.zip outcomes), ∃ a ∈ created,
      SubscriptionRow.Loads false (r, none) { a with feed := none })
    (honly : ∀ plan' size stamp' outcomes',
      .called (.insertBatch plan' size stamp') (.ok outcomes') ∈ past →
        plan' = plan ∧ stamp' = stamp ∧ outcomes' = outcomes) :
    AnswersAmong past (dropRepeated ((held ++ created ++ winners).mergeSort addressOrder)) := by
  have hids := h.ids hsettles h₀ hs hextends
  have hperm := List.mergeSort_perm (held ++ created ++ winners) addressOrder
  rw [dropRepeated_of_nodup (nodup_mergeSort hids)]
  refine ⟨sorted_of_nodup hids, nodup_mergeSort hids, ?_,
    fun plan' size stamp' outcomes' hpast => ?_⟩
  · refine ((hperm.filterMap (·.feedId)).nodup_iff).2 (List.pairwise_filterMap.2 ?_)
    refine (List.pairwise_map.1 hids).imp_of_mem fun {a b} ha hb hne f hf f' hf' heq => hne ?_
    exact h.id_eq_of_feed hsettles hapart h₀ ha hb hf (heq ▸ hf')
  · obtain ⟨rfl, rfl, rfl⟩ := honly plan' size stamp' outcomes' hpast
    intro r hr
    obtain ⟨a, ha, hloads⟩ := hnew r hr
    exact ⟨a, List.mem_mergeSort.2 (List.mem_append_left _ (List.mem_append_right _ ha)), hloads⟩

/-! ## Plans that come of what has been read -/

theorem find?_url_of_load {rows : List FeedRow} {feeds : List Feed}
    (h : List.Forall₂ (fun row f => row.load false = .ok f) rows feeds) (url : String) :
    (feeds.find? fun f => f.url = url).map (·.id) =
      (rows.find? fun row => row.url = url).map (·.id) := by
  induction h with
  | nil => rfl
  | @cons row f rows feeds hload _ ih =>
    have hloads := FeedRow.load_eq_ok.1 hload
    by_cases hurl : row.url = url
    · simp [hurl, hloads.url, hloads.id]
    · simpa [List.find?_cons, hurl, hloads.url] using ih

theorem filterMap_feedId_of_load {rows : List (SubscriptionRow × Option FeedRow)}
    {held : List Subscription}
    (h : List.Forall₂ (fun row a => SubscriptionRow.load false row = .ok a) rows held) :
    held.filterMap (·.feedId) = rows.filterMap fun row => row.1.feedId := by
  induction h with
  | nil => rfl
  | cons hload _ ih => simp [List.filterMap_cons, (SubscriptionRow.load_eq_ok.1 hload).feedId, ih]

/-- A plan for feeds that have been read can be inserted. -/
theorem insertable_list {target : String → Option String} {rows : List FeedRow} {held : List Int}
    {urls : List String} (hrows : ∀ row ∈ rows, ∃ f ∈ s.feeds, f.id = row.id) :
    s.Insertable user (Planned.list user target
      (fun url => (rows.find? fun row => row.url = url).map (·.id)) held urls) where
  user p hp := by
    obtain ⟨url, -, ⟨f, -, rfl⟩ | rfl⟩ := Planned.mem_listFrom hp <;> rfl
  known p hp f hf := by
    obtain ⟨url, -, ⟨f', hfeed, rfl⟩ | rfl⟩ := Planned.mem_listFrom hp
    · obtain rfl : f' = f := Option.some.inj hf
      obtain ⟨_, -, hfound⟩ := Option.bind_eq_some_iff.1 hfeed
      obtain ⟨row, hrow, rfl⟩ := Option.map_eq_some_iff.1 hfound
      exact hrows row (List.mem_of_find?_eq_some hrow)
    · cases hf
  apart := Planned.apart_listFrom

end Store

/-- The plan of a request to subscribe to a list, with the stamp of its rows, after what the request
has seen. -/
inductive Request.Plans (urls : List String) (user : Int) :
    List Planned → (stamp : String) → List Event → Prop
  | seen (targets : List (String × String)) (rows : List FeedRow)
      (held : List (SubscriptionRow × Option FeedRow)) (t : Instant) :
      Plans urls user
        (Planned.list user (fun url => targets.lookup url)
          (fun url => (rows.find? fun row => row.url = url).map (·.id))
          (held.filterMap fun row => row.1.feedId) urls)
        t.truncate.stamp
        [.called (.findTargets urls) targets,
          .called (.findFeedsAt (targets.map (·.2)).eraseDups) rows,
          .called (.subscriptionsTo user (rows.map (·.id))) held, .read t]

namespace Store

variable {s t : Store} {stamp : String} {user f : Int} {plan : List Planned}
  {outcomes : List Inserted}

/-! ## The operation -/

/-- Records of what has been read before and after inserting make up an answer. -/
theorem answerParts_of_load {s₀ s₅ : Store} (h₀ : s₀.Valid) {ids : List Int}
    {held winners : List Subscription} {rows : List SubscriptionRow} (feeds : List Feed)
    (time : Instant)
    (hheld : List.Forall₂ (fun r a => SubscriptionRow.load false (s₀.withFeed r) = .ok a)
      (s₀.heldRows user ids) held)
    (hfresh : ∀ p ∈ plan, ∀ f, p.feedId = some f → f ∉ held.filterMap (·.feedId))
    (hinserts : s.InsertsAmong t user stamp plan outcomes) (ht : t.Valid)
    (hextends : t.Extends s₅)
    (hwinners : List.Forall₂ (fun r a => SubscriptionRow.load false (s₅.withFeed r) = .ok a)
      rows winners)
    (hrows : ∀ r ∈ rows, r ∈ s₅.subscriptions ∧
      r.id ∈ (sortOutcomes feeds time (plan.zip outcomes)).2)
    (hids : (rows.map (·.id)).Nodup) :
    AnswerParts s₀ user (plan.zip outcomes) held
      (sortOutcomes feeds time (plan.zip outcomes)).1 winners where
  ofHeld a ha := by
    obtain ⟨r, hr, hload⟩ := forall₂_right hheld ha
    obtain ⟨hmem, huser, f, -, hf⟩ := mem_heldRows.1 hr
    have hloads := SubscriptionRow.load_eq_ok.1 hload
    exact ⟨r, hmem, huser, hloads.id, hloads.feedId, by rw [hf]; rfl⟩
  heldIds := by
    rw [map_eq_of_forall₂ (hheld.imp fun r a ha => (SubscriptionRow.load_eq_ok.1 ha).id)]
    exact h₀.nodup_heldRows user ids
  fresh q hq f hf a ha hfeed :=
    hfresh q.1 (List.of_mem_zip hq).1 f hf (List.mem_filterMap.2 ⟨a, ha, hfeed⟩)
  ofCreated a ha := by
    rw [sortOutcomes_eq] at ha
    obtain ⟨⟨p, o⟩, hq, hnew⟩ := List.mem_filterMap.1 ha
    cases o with
    | existing id f => cases hnew
    | new id =>
      obtain rfl := Option.some.inj hnew
      exact ⟨_, hq, rfl, rfl⟩
  createdIds := by
    have hnew : (sortOutcomes feeds time (plan.zip outcomes)).1.map (·.id) =
        (newRows stamp (plan.zip outcomes)).map (·.id) := by
      rw [sortOutcomes_eq, newRows, List.map_filterMap, List.map_filterMap]
      refine List.filterMap_congr fun q _ => ?_
      obtain ⟨p, o⟩ := q
      cases o <;> rfl
    rw [hnew]
    exact ht.subscriptionIds.sublist (hinserts.rows ▸ (List.sublist_append_right _ _).map _)
  ofWinners a ha := by
    obtain ⟨r, hr, hload⟩ := forall₂_right hwinners ha
    have hloads := SubscriptionRow.load_eq_ok.1 hload
    obtain ⟨hmem, hraced⟩ := hrows r hr
    rw [sortOutcomes_eq] at hraced
    obtain ⟨⟨p, o⟩, hq, hexisting⟩ := List.mem_filterMap.1 hraced
    cases settles_of_mem hinserts.settles hq with
    | new => cases hexisting
    | @existing f r₀ hfeed hheld =>
      have hid : r₀.id = r.id := Option.some.inj hexisting
      obtain ⟨hr₀, -, hf⟩ := mem_of_holder? hheld
      have hmem₀ : r₀ ∈ t.subscriptions := hinserts.rows ▸ List.mem_append_left _ hr₀
      have hlives := hextends.lives ht hmem₀ hmem hid.symm
      refine ⟨_, hq, f, ?_, hloads.feedId.trans ((hlives.feedId f hf).trans hfeed.symm)⟩
      rw [hloads.id]
      exact congrArg (Inserted.existing · f) hid
  winnersIds := by
    rw [map_eq_of_forall₂ (hwinners.imp fun r a ha => (SubscriptionRow.load_eq_ok.1 ha).id)]
    exact hids

/-- The plan that is inserted comes of what has been read and can be inserted. -/
def PlansWell (urls : List String) (user : Int) (size : Nat) (x : Store × List Event)
    (c : Call) : Prop :=
  ∀ plan chunk stamp, c = .insertBatch plan chunk stamp → chunk = size ∧
    Request.Plans urls user plan stamp x.2 ∧ x.1.Insertable user plan

open Operation

/-- The rows that are new are answered with. Their stamp can be read, since the store is left in
the years. -/
theorem exists_created_of_mem_newRows (feeds : List Feed) {time : Instant} (htime : time.IsWhole)
    (hyears : t.InYears) (hinserts : s.InsertsAmong t user time.stamp plan outcomes)
    {r : SubscriptionRow} (hr : r ∈ newRows time.stamp (plan.zip outcomes)) :
    ∃ a ∈ (sortOutcomes feeds time (plan.zip outcomes)).1,
      SubscriptionRow.Loads false (r, none) { a with feed := none } := by
  have hmem : r ∈ t.subscriptions := hinserts.rows ▸ List.mem_append_right _ hr
  obtain ⟨p, id, hsettled, rfl⟩ := mem_newRows.1 hr
  have hdecode : Stamp.decode time.stamp = .ok time := by
    have hin := hyears time (mem_stamps.2 (.inr (.inr (.inr ⟨_, hmem, List.mem_cons_self⟩))))
    rw [Instant.decode_stamp hin, Instant.truncate_eq_self htime]
  refine ⟨inserted feeds time p id, ?_, rfl, rfl, rfl, rfl, rfl, rfl, rfl, hdecode, hdecode, rfl⟩
  rw [sortOutcomes_eq]
  exact List.mem_filterMap.2 ⟨_, hsettled, rfl⟩

theorem ensures_subscribePlanned_among {s₀ : Store} (h₀ : s₀.Valid) {urls : List String}
    {size : Nat} {feeds : List Feed} {held : List Subscription} {ids : List Int} {past : List Event}
    (hplans : ∀ t : Instant, Request.Plans urls user plan t.truncate.stamp (past ++ [.read t]))
    (hplan : s₀.Insertable user plan)
    (hheld : List.Forall₂ (fun r a => SubscriptionRow.load false (s₀.withFeed r) = .ok a)
      (s₀.heldRows user ids) held)
    (hfresh : ∀ p ∈ plan, ∀ f, p.feedId = some f → f ∉ held.filterMap (·.feedId))
    (hpast : ∀ plan size stamp outcomes,
      .called (.insertBatch plan size stamp) (.ok outcomes) ∉ past) :
    (subscribePlanned user size feeds held plan).Ensures .shared (PlansWell urls user size)
      (fun x r => ∃ answer, r = .ok answer ∧ AnswersAmong x.2 answer) (s₀, past) := by
  refine ensures_subscribePlanned.2 ?_
  rintro t _ rfl
  have hplans := hplans t
  have htime := t.isWhole_truncate
  generalize t.truncate = time at hplans htime ⊢
  refine ⟨?_, ?_⟩
  · rintro _ _ _ ⟨⟩
    exact ⟨rfl, hplans, hplan⟩
  rintro outcome _ ⟨s₄, hs₄, hvalid₄, hyears₄, hvalid, hyears, houtcome, rfl⟩
  obtain ⟨outcomes, t₄, hbatch, hinserts⟩ :=
    insertBatch_among (hplan.later hs₄) size time.stamp hvalid
  obtain rfl : .ok outcomes = outcome := (congrArg Prod.fst hbatch).symm.trans houtcome
  have ht₄ : ((Call.insertBatch plan size time.stamp).run s₄).2 = t₄ := congrArg Prod.snd hbatch
  rw [ht₄] at hvalid hyears ⊢
  have only (later : List Event) (hlater : ∀ plan size stamp outcomes,
      .called (.insertBatch plan size stamp) (.ok outcomes) ∉ later) (plan' : List Planned)
      (size' : Nat) (stamp' : String) (outcomes' : List Inserted)
      (hmem : .called (.insertBatch plan' size' stamp') (.ok outcomes') ∈ past ++ [.read t] ++
        [.called (.insertBatch plan size time.stamp) (.ok outcomes)] ++ later) :
      plan' = plan ∧ stamp' = time.stamp ∧ outcomes' = outcomes := by
    simp only [List.mem_append, List.mem_singleton] at hmem
    rcases hmem with ((hmem | hmem) | hmem) | hmem
    · exact absurd hmem (hpast plan' size' stamp' outcomes')
    · cases hmem
    · obtain ⟨hcall, houtcomes⟩ := Event.called.inj hmem
      obtain ⟨rfl, -, rfl⟩ := Call.insertBatch.inj hcall
      exact ⟨rfl, rfl, Except.ok.inj (eq_of_heq houtcomes)⟩
    · exact absurd hmem (hlater plan' size' stamp' outcomes')
  have hnew (r : SubscriptionRow) (hr : r ∈ newRows time.stamp (plan.zip outcomes)) :=
    exists_created_of_mem_newRows feeds htime hyears hinserts hr
  dsimp only
  split
  · have hparts := answerParts_of_load h₀ feeds time hheld hfresh hinserts hvalid (.refl t₄) .nil
      (by simp) .nil
    have hanswers := hparts.answersAmong hinserts.settles hplan.apart h₀ hvalid₄ hs₄ hnew
      (only [] (by simp))
    rw [List.append_nil, List.append_nil] at hanswers
    exact ⟨_, rfl, hanswers⟩
  · refine ⟨(fun _ _ _ h => nomatch h), ?_⟩
    rintro rows _ ⟨s₅, hs₅, hvalid₅, hyears₅, -, -, hrows, rfl⟩
    obtain rfl : Call.runListSubscriptions user _ true s₅ = rows := hrows
    obtain ⟨winners, hload⟩ := hvalid₅.subscriptions_load hyears₅ false
      fun r hr => (mem_visible.1 (List.mem_of_mem_filter hr)).1
    rw [show (Call.runListSubscriptions user _ true s₅).mapM _ = .ok winners from hload]
    have hparts := answerParts_of_load h₀ feeds time hheld hfresh hinserts hvalid hs₅
      (List.forall₂_map_left_iff.1 (mapM_eq_ok.1 hload)) (fun r hr => ?_)
      ((hvalid₅.nodup_visible user true).sublist (List.filter_sublist.map _))
    · exact ⟨_, rfl, hparts.answersAmong hinserts.settles hplan.apart h₀ hvalid₄ hs₄ hnew
        (only _ (by simp))⟩
    · obtain ⟨hr, hraced⟩ := List.mem_filter.1 hr
      exact ⟨(mem_visible.1 hr).1, by simpa using hraced⟩

/-- **Subscribing to a list among others** succeeds. -/
theorem ensures_subscribeAll_among (s : Store) (urls : List String) (user : Int) (size : Nat) :
    (subscribeAll urls user size).Ensures .shared (PlansWell urls user size)
      (fun x r => ∃ answer, r = .ok answer ∧ AnswersAmong x.2 answer) (s, []) := by
  refine ensures_subscribeAll.2 ?_
  split
  · exact ⟨[], rfl, .nil, .nil, .nil, fun _ _ _ _ h => nomatch h⟩
  refine ⟨(fun _ _ _ h => nomatch h), ?_⟩
  rintro targets _ ⟨s₁, -, -, -, -, -, -, rfl⟩
  refine ⟨(fun _ _ _ h => nomatch h), ?_⟩
  rintro rows _ ⟨s₂, -, hvalid₂, hyears₂, -, -, hrows, rfl⟩
  obtain ⟨feeds, hfeeds⟩ := hvalid₂.findFeedsAt_load hyears₂ (targets.map (·.2)).eraseDups
  rw [show Call.runFindFeedsAt (targets.map (·.2)).eraseDups s₂ = rows from hrows] at hfeeds
  rw [hfeeds]
  rw [mapM_eq_ok] at hfeeds
  have hids : feeds.map (·.id) = rows.map (·.id) :=
    map_eq_of_forall₂ (hfeeds.imp fun row f hload => (FeedRow.load_eq_ok.1 hload).id)
  dsimp only
  rw [hids]
  refine ⟨(fun _ _ _ h => nomatch h), ?_⟩
  rintro heldRows _ ⟨s₃, hs₃, hvalid₃, hyears₃, -, -, rfl, rfl⟩
  obtain ⟨held, hheld⟩ := hvalid₃.subscriptionsTo_load hyears₃ user (rows.map (·.id))
  rw [show ((Call.subscriptionsTo user (rows.map (·.id))).run s₃).1.mapM
    (SubscriptionRow.load false) = .ok held from hheld]
  have hknown : ∀ row ∈ rows, ∃ f ∈ s₃.feeds, f.id = row.id := fun row hrow =>
    hs₃.feed ⟨row, (mem_runFindFeedsAt.1 (hrows ▸ hrow)).1, rfl⟩
  have hplan : Planned.list user (fun url => targets.lookup url)
      (fun url => (feeds.find? fun f => f.url = url).map (·.id)) (held.filterMap (·.feedId)) urls =
      Planned.list user (fun url => targets.lookup url)
      (fun url => (rows.find? fun row => row.url = url).map (·.id))
      (((Call.subscriptionsTo user (rows.map (·.id))).run s₃).1.filterMap fun row => row.1.feedId)
      urls := by
    rw [filterMap_feedId_of_load (mapM_eq_ok.1 hheld)]
    simp only [find?_url_of_load hfeeds]
    rfl
  have hrecords := mapM_eq_ok.1 hheld
  rw [runSubscriptionsTo_eq, List.forall₂_map_left_iff] at hrecords
  refine ensures_subscribePlanned_among hvalid₃ (fun t => ?_) (hplan ▸ insertable_list hknown)
    hrecords (fun p hp => (Planned.fresh_of_mem_listFrom hp).2) (by simp)
  rw [hplan]
  exact .seen targets rows _ t

end Store

namespace System

/-! ## Lists against everyone else -/

/-- **Subscribing to a list survives every race.** As long as instants stay in the years 0 to 9999,
wherever a request to subscribe to a list stands among others: when it inserts its plan, which has
come of what it has seen, every pending row becomes one new row and for every bound row the user
holds its feed just once, by a new row or by the one that was there, which stays as it is; and the
request ends well, with an answer that is sorted, names no id and no feed twice and holds every row
that it has inserted. -/
theorem subscribeAll_survives_races {x : System} (hx : x.ReachableInYears) {i : Nat}
    {urls : List String} {user : Int} {size : Nat} {past : List Event}
    {rest : Program (Except StoreError Reply)}
    (hi : x.running[i]? = some ⟨.subscribeAll urls user size, past, rest⟩) :
    (∀ plan chunk stamp next y, rest = .call (.insertBatch plan chunk stamp) next →
      x.act (.call i) = some y → chunk = size ∧ Request.Plans urls user plan stamp past ∧
      ∃ outcomes, y.running[i]? = some ⟨.subscribeAll urls user size,
          past ++ [.called (.insertBatch plan chunk stamp) (.ok outcomes)], next (.ok outcomes)⟩ ∧
        x.store.InsertsAmong y.store user stamp plan outcomes) ∧
    ∀ r, rest = .done r → ∃ answer, r = .ok (.subscriptions answer) ∧
      Store.AnswersAmong past answer := by
  have hop (s : Store) (_ : s.Valid) (_ : s.InYears) :
      (Request.subscribeAll urls user size).operation.Ensures .shared
        (Store.PlansWell urls user size)
        (fun x r => ∃ answer, r = .ok (.subscriptions answer) ∧ Store.AnswersAmong x.2 answer)
        (s, []) := by
    refine Operation.ensures_map.2 ((Store.ensures_subscribeAll_among s urls user size).mono
      (fun _ _ h => h) ?_)
    rintro x _ ⟨answer, rfl, hanswers⟩
    exact ⟨answer, rfl, hanswers⟩
  obtain ⟨s, hs, hrest⟩ := hx.ensures hop hi
  constructor
  · rintro plan chunk stamp next y rfl hy
    obtain ⟨rfl, hplans, hplan⟩ := hrest.1 plan chunk stamp rfl
    have hvalid := hx.reachable.sound.valid_call hi
    obtain ⟨outcomes, t, hbatch, hinserts⟩ :=
      Store.insertBatch_among (hplan.later hs) chunk stamp hvalid
    refine ⟨rfl, hplans, outcomes, ?_⟩
    have hanswer : ((Call.insertBatch plan chunk stamp).run x.store).1 = .ok outcomes :=
      congrArg Prod.fst hbatch
    have hstore : ((Call.insertBatch plan chunk stamp).run x.store).2 = t :=
      congrArg Prod.snd hbatch
    have hstep : x.act (.call i) = some _ := act_eq_some.2 (.call hi)
    obtain rfl := Option.some.inj (hstep.symm.trans hy)
    rw [hanswer, hstore]
    exact ⟨List.getElem?_set_self (List.getElem?_eq_some_iff.1 hi).1, hinserts⟩
  · rintro r rfl
    exact hrest

/-- What a request to subscribe to a list inserts next, and for whom. -/
def insertion? (x : System) (i : Nat) : Option (Int × List Planned) :=
  match x.running[i]? with
  | some ⟨.subscribeAll _ user _, _, .call (.insertBatch plan _ _) _⟩ => some (user, plan)
  | _ => none

theorem insertion?_eq_some {x : System} {i : Nat} {user : Int} {plan : List Planned}
    (h : x.insertion? i = some (user, plan)) : ∃ urls size past chunk stamp next,
      x.running[i]? = some ⟨.subscribeAll urls user size, past,
        .call (.insertBatch plan chunk stamp) next⟩ := by
  unfold insertion? at h
  split at h
  · next hi =>
    cases h
    exact ⟨_, _, _, _, _, _, hi⟩
  · cases h

/-- The ids and feeds that a request to subscribe to a list has answered with. -/
def answered? (x : System) (i : Nat) : Option (List (Int × Option Int)) :=
  match x.running[i]? with
  | some ⟨.subscribeAll _ _ _, _, .done (.ok (.subscriptions answer))⟩ =>
    some (answer.map fun a => (a.id, a.feedId))
  | _ => none

theorem answered?_eq_some {x : System} {i : Nat} {records : List (Int × Option Int)}
    (h : x.answered? i = some records) : ∃ urls user size past answer,
      x.running[i]? = some ⟨.subscribeAll urls user size, past,
        .done (.ok (.subscriptions answer))⟩ ∧
      (answer.map fun a => (a.id, a.feedId)) = records := by
  unfold answered? at h
  split at h
  · next hi => exact ⟨_, _, _, _, _, hi, Option.some.inj h⟩
  · cases h

/-- A user subscribes to a list and is about to subscribe to a feed that is known; but by another
request the user subscribes to that feed before the plan is inserted. -/
def overtaken (urls : List String) : List Action :=
  [.start (.getOrCreateFeed "http://a.com/rss.xml"), .read 0 .epoch, .call 0,
    .start (.recordMapping "http://a.com/" "http://a.com/rss.xml"), .read 1 .epoch, .call 1,
    .start (.subscribeAll urls 1 0), .call 2, .call 2, .call 2,
    .start (.subscribe "http://a.com/" 1), .call 3, .call 3, .call 3, .read 3 .epoch, .call 3,
    .read 2 .epoch]

/-- A plan with a row that others have inserted, and an answer with that row. -/
theorem subscribeAll_survives_races_overtaken : ∃ x y z : System, ∃ user stamp plan outcomes past
    answer, x.ReachableInYears ∧ x.act (.call 2) = some y ∧ (x.store.holder? 1 1).isSome ∧
    x.insertion? 2 = some (user, plan) ∧ plan.map (·.feedId) = [some 1, none] ∧
    x.store.InsertsAmong y.store user stamp plan outcomes ∧
    z.ReachableInYears ∧ Store.AnswersAmong past answer ∧
    (answer.map fun a => (a.id, a.feedId)) = [(1, some 1)] := by
  have hproper (urls : List String) : ∀ a ∈ overtaken urls ++ [.call 2, .call 2], a.Proper := by
    simp [overtaken, Action.Proper, Request.Proper]
  let urls : List String := ["http://a.com/", "http://b.com/"]
  have hplay : (initial.play (overtaken urls)).map (fun x => (x.insertion? 2,
      (x.store.holder? 1 1).isSome, (x.act (.call 2)).isSome)) =
        some (some (1, [.bound 1 1 "http://a.com/", .pending 1 "http://b.com/"]), true, true) := by
    decide +kernel
  obtain ⟨x, hx, hends⟩ := Option.map_eq_some_iff.1 hplay
  obtain ⟨hinsertion, hends⟩ := Prod.mk.inj hends
  obtain ⟨hheld, hstep⟩ := Prod.mk.inj hends
  have hxyears : x.ReachableInYears := reachableInYears_of_play
    (fun a ha => hproper urls a (List.mem_append_left _ ha)) hx (by decide +kernel)
  obtain ⟨y, hy⟩ := Option.isSome_iff_exists.1 hstep
  obtain ⟨urls, size, past, chunk, stamp, next, hi⟩ := insertion?_eq_some hinsertion
  obtain ⟨-, -, outcomes, -, hinserts⟩ :=
    (subscribeAll_survives_races hxyears hi).1 _ chunk stamp next y rfl hy
  have hplay : (initial.play (overtaken ["http://a.com/"] ++ [.call 2, .call 2])).map
      (·.answered? 2) = some (some [(1, some 1)]) := by decide +kernel
  obtain ⟨z, hz, hanswered⟩ := Option.map_eq_some_iff.1 hplay
  have hzyears : z.ReachableInYears :=
    reachableInYears_of_play (hproper ["http://a.com/"]) hz (by decide +kernel)
  obtain ⟨_, _, _, past, answer, hj, hrecords⟩ := answered?_eq_some hanswered
  obtain ⟨_, hanswer, hanswers⟩ := (subscribeAll_survives_races hzyears hj).2 _ rfl
  cases hanswer
  exact ⟨x, y, z, 1, stamp, _, outcomes, past, answer, hxyears, hy, hheld, hinsertion, rfl,
    hinserts, hzyears, hanswers, hrecords⟩

end System

end Syndication
