import Syndication.Proofs.Subscription.Race
/-!
# Plans of any kind, in chunks

A plan need not come of a list of addresses: it may name users and feeds as it likes, one pair
twice, and feeds that do not exist. Row by row (`Store.TakesAll`) each of its rows becomes a new row
or stands for the row by which its user holds the feed. Whatever the size of the chunks, that is
what becomes of the plan as far as every feed exists; from the first chunk on with a row that cannot
be inserted nothing is. `System.Reachable.insertPlanned_by_chunks` says so of every reachable store,
and that the number an interrupted plan is reported with counts rows that were there already, so
that it is the number of the rows added exactly if there were none
(`System.insertPlanned_overcounts`).
-/

namespace Syndication

/-- The rows in whole chunks that rows begin with: what lies before the chunk of the row that
follows them. -/
def Planned.wholeChunks (size : Nat) (rows : List Planned) : List Planned :=
  rows.take (rows.length / max 1 size * max 1 size)

namespace Planned

variable {size : Nat} {rows : List Planned}

theorem wholeChunks_of_lt (h : rows.length < max 1 size) : wholeChunks size rows = [] := by
  rw [wholeChunks, Nat.div_eq_of_lt h, Nat.zero_mul, List.take_zero]

theorem wholeChunks_of_le (h : max 1 size ≤ rows.length) : wholeChunks size rows =
    rows.take (max 1 size) ++ wholeChunks size (rows.drop (max 1 size)) := by
  have hpos : 0 < max 1 size := by omega
  have hlength : rows.length / max 1 size * max 1 size = max 1 size +
      (rows.length - max 1 size) / max 1 size * max 1 size := by
    rw [Nat.div_eq_sub_div hpos h, Nat.add_mul, Nat.one_mul, Nat.add_comm]
  rw [wholeChunks, wholeChunks, hlength, List.take_add, List.length_drop]

theorem length_wholeChunks_pos (h : max 1 size ≤ rows.length) :
    0 < (wholeChunks size rows).length := by
  rw [wholeChunks_of_le h, List.length_append, List.length_take]
  omega

/-- Rows begin with a chunk, and the rest comes after it. -/
theorem take_chunk (size : Nat) (row : Planned) (rows : List Planned) :
    row :: rows.take (size - 1) = (row :: rows).take (max 1 size) := by
  have hsize : max 1 size = (size - 1) + 1 := by omega
  rw [hsize, List.take_succ_cons]

theorem drop_chunk (size : Nat) (row : Planned) (rows : List Planned) :
    rows.drop (size - 1) = (row :: rows).drop (max 1 size) := by
  have hsize : max 1 size = (size - 1) + 1 := by omega
  rw [hsize, List.drop_succ_cons]

end Planned

namespace Store

/-! ## Row by row -/

/-- The feed that a planned row names, if it names one, exists. -/
def Knows (s : Store) (p : Planned) : Prop := ∀ f, p.feedId = some f → ∃ row ∈ s.feeds, row.id = f

/-- Every feed that a subscription is bound to exists. -/
def Linked (s : Store) : Prop :=
  ∀ r ∈ s.subscriptions, ∀ f, r.feedId = some f → ∃ row ∈ s.feeds, row.id = f

/-- What becomes of a planned row, and the store afterwards: a new row, or the row by which its user
holds its feed. -/
inductive Takes (stamp : String) (s : Store) (p : Planned) : Inserted → Store → Prop
  | new (hfree : ∀ f, p.feedId = some f → ¬ s.Holds p.user f) :
      Takes stamp s p (.new (s.lastSubscriptionId + 1)) (s.addSubscription p stamp)
  | existing {f : Int} {r : SubscriptionRow} (hfeed : p.feedId = some f)
      (hrow : r ∈ s.subscriptions) (huser : r.user = p.user) (hheld : r.feedId = some f) :
      Takes stamp s p (.existing r.id f) s

/-- Rows are taken one after another, each into the store that the rows before it have left. -/
inductive TakesAll (stamp : String) : Store → List Planned → List Inserted → Store → Prop
  | nil {s : Store} : TakesAll stamp s [] [] s
  | cons {s t u : Store} {p : Planned} {o : Inserted} {plan : List Planned}
      {outcomes : List Inserted} (first : Takes stamp s p o u)
      (rest : TakesAll stamp u plan outcomes t) : TakesAll stamp s (p :: plan) (o :: outcomes) t

variable {stamp : String} {s t : Store} {p : Planned} {o : Inserted} {plan : List Planned}
  {outcomes : List Inserted}

theorem newRows_append (stamp : String) (settled more : List (Planned × Inserted)) :
    newRows stamp (settled ++ more) = newRows stamp settled ++ newRows stamp more :=
  List.filterMap_append

theorem knows_congr (h : t.feeds = s.feeds) : t.Knows p ↔ s.Knows p := by
  unfold Knows
  rw [h]

namespace Takes

theorem feeds (h : Takes stamp s p o t) : t.feeds = s.feeds := by
  cases h <;> rfl

theorem linked (h : Takes stamp s p o t) (hs : s.Linked) (hp : s.Knows p) : t.Linked := by
  cases h with
  | existing => exact hs
  | new hfree =>
    intro r hr f hf
    rcases List.mem_append.1 hr with hr | hr
    · exact hs r hr f hf
    · obtain rfl := List.mem_singleton.1 hr
      exact hp f hf

theorem subscriptions (h : Takes stamp s p o t) :
    t.subscriptions = s.subscriptions ++ newRows stamp [(p, o)] := by
  cases h with
  | existing => exact (List.append_nil _).symm
  | new => rfl

end Takes

namespace TakesAll

theorem length (h : TakesAll stamp s plan outcomes t) : plan.length = outcomes.length := by
  induction h with
  | nil => rfl
  | cons _ _ ih => rw [List.length_cons, List.length_cons, ih]

theorem feeds (h : TakesAll stamp s plan outcomes t) : t.feeds = s.feeds := by
  induction h with
  | nil => rfl
  | cons first _ ih => exact ih.trans first.feeds

theorem linked (h : TakesAll stamp s plan outcomes t) (hs : s.Linked)
    (hplan : ∀ p ∈ plan, s.Knows p) : t.Linked := by
  induction h with
  | nil => exact hs
  | cons first _ ih =>
    obtain ⟨hp, hplan⟩ := List.forall_mem_cons.1 hplan
    exact ih (first.linked hs hp) fun q hq => (knows_congr first.feeds).2 (hplan q hq)

theorem append {s t u : Store} {plan rest : List Planned} {outcomes others : List Inserted}
    (h : TakesAll stamp s plan outcomes u) (hrest : TakesAll stamp u rest others t) :
    TakesAll stamp s (plan ++ rest) (outcomes ++ others) t := by
  induction h with
  | nil => exact hrest
  | cons first _ ih => exact .cons first (ih hrest)

/-- The rows that were there stay, and the rows of the plan that are new follow them in order. -/
theorem subscriptions (h : TakesAll stamp s plan outcomes t) :
    t.subscriptions = s.subscriptions ++ newRows stamp (plan.zip outcomes) := by
  induction h with
  | nil => exact (List.append_nil _).symm
  | @cons s t u p o plan outcomes first _ ih =>
    rw [ih, first.subscriptions, List.append_assoc]
    exact congrArg _ (newRows_append stamp [(p, o)] (plan.zip outcomes)).symm

end TakesAll

/-- As many rows are new as there are rows, exactly if every one is. -/
theorem length_newRows (h : plan.length = outcomes.length) :
    (newRows stamp (plan.zip outcomes)).length = plan.length ↔
      ∀ o ∈ outcomes, ∃ id, o = .new id := by
  have hlength : (plan.zip outcomes).length = plan.length := by
    rw [List.length_zip, ← h, Nat.min_self]
  rw [← hlength, newRows, List.filterMap_length_eq_length]
  constructor
  · intro hsome o ho
    rw [← List.map_snd_zip h.ge] at ho
    obtain ⟨⟨p, o⟩, hmem, rfl⟩ := List.mem_map.1 ho
    cases o with
    | new id => exact ⟨id, rfl⟩
    | existing => cases hsome _ hmem
  · rintro hnew ⟨p, o⟩ hmem
    obtain ⟨id, rfl⟩ := hnew o (List.of_mem_zip hmem).2
    rfl

/-! ## One row, and a chunk -/

theorem takes_of_insertRow (h : insertRow stamp s p = some (o, t)) : Takes stamp s p o t := by
  rcases insertRow_cases h with ⟨f, held, hfeed, hheld, rfl, rfl⟩ | ⟨hfree, rfl, rfl⟩
  · obtain ⟨hrow, huser, hf⟩ := mem_of_holder? hheld
    exact .existing hfeed hrow huser hf
  · refine .new fun f hf hholds => ?_
    rw [← isSome_holder?, (hfree f hf).2] at hholds
    cases hholds

/-- A row can be inserted exactly if its feed exists: nobody holds a feed that does not. -/
theorem isSome_insertRow (stamp : String) (hs : s.Linked) :
    (insertRow stamp s p).isSome ↔ s.Knows p := by
  constructor
  · intro h
    obtain ⟨⟨o, t⟩, hrow⟩ := Option.isSome_iff_exists.1 h
    rcases insertRow_cases hrow with ⟨f, held, hfeed, hheld, -, -⟩ | ⟨hfree, -, -⟩
    · obtain ⟨hmem, -, hf⟩ := mem_of_holder? hheld
      intro f' hf'
      obtain rfl := Option.some.inj (hfeed.symm.trans hf')
      exact hs held hmem f hf
    · exact fun f hf => (hfree f hf).1
  · intro hknows
    cases hfeed : p.feedId with
    | none => simp [insertRow, hfeed]
    | some f =>
      obtain ⟨row, hrow, hid⟩ := hknows f hfeed
      have hfound : (s.feed? f).isSome := List.find?_isSome.2 ⟨row, hrow, by simpa using hid⟩
      cases hheld : s.holder? p.user f with
      | none => simp [insertRow, hfeed, hheld, hfound]
      | some held => simp [insertRow, hfeed, hheld]

theorem takesAll_of_insertChunk (h : insertChunk stamp s plan = some (outcomes, t)) :
    TakesAll stamp s plan outcomes t := by
  induction plan generalizing s outcomes with
  | nil =>
    obtain ⟨rfl, rfl⟩ := Prod.mk.inj (Option.some.inj h)
    exact .nil
  | cons p plan ih =>
    simp only [insertChunk, Option.bind_eq_bind, Option.bind_eq_some_iff] at h
    obtain ⟨⟨o, u⟩, hrow, ⟨rest, t'⟩, hrest, h⟩ := h
    obtain ⟨rfl, rfl⟩ := Prod.mk.inj (Option.some.inj h)
    exact .cons (takes_of_insertRow hrow) (ih hrest)

/-- A chunk can be inserted exactly if the feeds of all its rows exist. -/
theorem isSome_insertChunk (stamp : String) (hs : s.Linked) :
    (insertChunk stamp s plan).isSome ↔ ∀ p ∈ plan, s.Knows p := by
  induction plan generalizing s with
  | nil => simp [insertChunk]
  | cons p plan ih =>
    rw [List.forall_mem_cons, ← isSome_insertRow stamp hs]
    simp only [insertChunk, Option.bind_eq_bind]
    cases hrow : insertRow stamp s p with
    | none => simp
    | some first =>
      obtain ⟨o, u⟩ := first
      have htakes := takes_of_insertRow hrow
      have hp : s.Knows p := (isSome_insertRow stamp hs).1 (by rw [hrow]; rfl)
      have hrest : (insertChunk stamp u plan).isSome ↔ ∀ q ∈ plan, s.Knows q := by
        rw [ih (htakes.linked hs hp)]
        exact forall₂_congr fun q _ => knows_congr htakes.feeds
      rw [← hrest]
      cases hchunk : insertChunk stamp u plan <;> simp [hchunk]

/-! ## Chunks up to the first that fails -/

/-- **A plan with a row that cannot be inserted**: what lies in whole chunks before the row is, and
the plan stops. What carries the induction is that a chunk that is inserted ends before the row. -/
theorem insertChunks_of_missing (stamp : String) (size : Nat) (done : List Inserted) (hs : s.Linked)
    {before after : List Planned} (hplan : plan = before ++ p :: after)
    (hbefore : ∀ q ∈ before, s.Knows q) (hp : ¬ s.Knows p) :
    ∃ outcomes t, TakesAll stamp s (Planned.wholeChunks size before) outcomes t ∧
      insertChunks stamp size done s plan = (.error (done.length + outcomes.length), t) := by
  fun_induction insertChunks stamp size done s plan generalizing before with
  | case1 done s => simp at hplan
  | case2 done s row rows first u hfirst ih =>
    rw [Planned.take_chunk, hplan] at hfirst
    have hknown := (isSome_insertChunk stamp hs).1 (by rw [hfirst]; rfl)
    have hle : max 1 size ≤ before.length := by
      by_contra hlt
      refine hp (hknown p (List.mem_take_iff_getElem.2 ⟨before.length, ?_, ?_⟩))
      · simp only [List.length_append, List.length_cons]
        omega
      · simp
    rw [List.take_append_of_le_length hle] at hfirst hknown
    have htakes := takesAll_of_insertChunk hfirst
    have hdrop : rows.drop (size - 1) = before.drop (max 1 size) ++ p :: after := by
      rw [Planned.drop_chunk size row, hplan, List.drop_append_of_le_length hle]
    obtain ⟨outcomes, t, hrest, hleft⟩ := ih (htakes.linked hs hknown) hdrop
      (fun q hq => (knows_congr htakes.feeds).2 (hbefore q (List.mem_of_mem_drop hq)))
      (mt (knows_congr htakes.feeds).1 hp)
    refine ⟨first ++ outcomes, t, ?_, ?_⟩
    · rw [Planned.wholeChunks_of_le hle]
      exact htakes.append hrest
    · rw [hleft, List.length_append, List.length_append, Nat.add_assoc]
  | case3 done s row rows hfirst =>
    have hlt : before.length < max 1 size := by
      by_contra hle
      rw [Planned.take_chunk, hplan, List.take_append_of_le_length (by omega)] at hfirst
      have hsome : (insertChunk stamp s (before.take (max 1 size))).isSome :=
        (isSome_insertChunk stamp hs).2 fun q hq => hbefore q (List.mem_of_mem_take hq)
      rw [hfirst] at hsome
      cases hsome
    exact ⟨[], s, Planned.wholeChunks_of_lt hlt ▸ .nil, rfl⟩

/-! ## The operation -/

/-- Inserting a plan is one call. -/
theorem runOn_insertPlanned (plan : List Planned) (size : Nat) (time : Instant)
    (clock : Nat → Instant) (s : Store) : (insertPlanned plan size time).runOn clock s =
      ((match (s.insertBatch plan size time.stamp).1 with
        | .ok outcomes => .ok outcomes
        | .error 0 => .error .noSuchFeed
        | .error committed => .error (.partialBatch committed)),
      (s.insertBatch plan size time.stamp).2) := by
  refine Operation.Ensures.runOn_eq ?_
  unfold insertPlanned
  rw [Operation.ensures_bind]
  refine Operation.ensures_call.2 ⟨True.intro, ?_⟩
  rintro _ _ ⟨rfl, rfl⟩
  rw [Operation.continues_ok]
  simp only [Call.run]
  generalize s.insertBatch plan size time.stamp = result
  obtain ⟨(_ | _) | _, t⟩ := result <;> rfl

/-- What a plan does to a store in which the feeds of all its rows exist. -/
theorem insertPlanned_of_known (hs : s.Linked) (hplan : ∀ p ∈ plan, s.Knows p) (time : Instant) :
    ∃ outcomes t, TakesAll time.stamp s plan outcomes t ∧ ∀ size clock,
      (insertPlanned plan size time).runOn clock s = (.ok outcomes, t) := by
  obtain ⟨⟨outcomes, t⟩, hchunk⟩ :=
    Option.isSome_iff_exists.1 ((isSome_insertChunk time.stamp hs).2 hplan)
  refine ⟨outcomes, t, takesAll_of_insertChunk hchunk, fun size clock => ?_⟩
  have hbatch : s.insertBatch plan size time.stamp = (.ok outcomes, t) :=
    insertChunks_of_chunk size [] hchunk
  rw [runOn_insertPlanned, hbatch]

/-- What a plan does to a store in which the feed of one of its rows is the first that does not
exist. -/
theorem insertPlanned_of_missing (hs : s.Linked) {before after : List Planned}
    (hplan : plan = before ++ p :: after) (hbefore : ∀ q ∈ before, s.Knows q) (hp : ¬ s.Knows p)
    (size : Nat) (time : Instant) :
    ∃ outcomes t, TakesAll time.stamp s (Planned.wholeChunks size before) outcomes t ∧
      ∀ clock, (insertPlanned plan size time).runOn clock s =
        (.error (if before.length < max 1 size then .noSuchFeed
          else .partialBatch (Planned.wholeChunks size before).length), t) := by
  obtain ⟨outcomes, t, htakes, hchunks⟩ :=
    insertChunks_of_missing time.stamp size [] hs hplan hbefore hp
  have hbatch : s.insertBatch plan size time.stamp =
      (.error (Planned.wholeChunks size before).length, t) := by
    rw [insertBatch, hchunks, htakes.length, List.length_nil, Nat.zero_add]
  refine ⟨outcomes, t, htakes, fun clock => ?_⟩
  rw [runOn_insertPlanned, hbatch]
  split_ifs with hlt
  · rw [Planned.wholeChunks_of_lt hlt]
    rfl
  · obtain ⟨n, hn⟩ := Nat.exists_eq_add_one.2 (Planned.length_wholeChunks_pos (not_lt.1 hlt))
    simp only [hn]

end Store

namespace System

/-- **Inserting a plan in chunks**: if the feed of every row exists, every row is taken, one after
another, whatever the size of the chunks. Otherwise only what lies in chunks before the first row
without a feed is taken; the number in the error counts these rows, which is the number of rows
added exactly if each of them was new. -/
theorem Reachable.insertPlanned_by_chunks {x : System} (hx : x.Reachable) (plan : List Planned)
    (time : Instant) :
    ((∀ p ∈ plan, x.store.Knows p) → ∃ outcomes t,
      Store.TakesAll time.stamp x.store plan outcomes t ∧
      t.subscriptions = x.store.subscriptions ++ Store.newRows time.stamp (plan.zip outcomes) ∧
      ∀ size clock, (Store.insertPlanned plan size time).runOn clock x.store = (.ok outcomes, t)) ∧
    ∀ before p after, plan = before ++ p :: after → (∀ q ∈ before, x.store.Knows q) →
      ¬ x.store.Knows p → ∀ size, ∃ kept outcomes t, kept = Planned.wholeChunks size before ∧
        Store.TakesAll time.stamp x.store kept outcomes t ∧
        t.subscriptions = x.store.subscriptions ++ Store.newRows time.stamp (kept.zip outcomes) ∧
        (∀ clock, (Store.insertPlanned plan size time).runOn clock x.store =
          (.error (if before.length < max 1 size then .noSuchFeed
            else .partialBatch kept.length), t)) ∧
        (t.subscriptions.length = x.store.subscriptions.length + kept.length ↔
          ∀ o ∈ outcomes, ∃ id, o = .new id) := by
  have hlinked : x.store.Linked := hx.sound.valid.subscriptionFeed
  refine ⟨fun hplan => ?_, fun before p after hplan hbefore hp size => ?_⟩
  · obtain ⟨outcomes, t, htakes, hrun⟩ := Store.insertPlanned_of_known hlinked hplan time
    exact ⟨outcomes, t, htakes, htakes.subscriptions, hrun⟩
  · obtain ⟨outcomes, t, htakes, hrun⟩ :=
      Store.insertPlanned_of_missing hlinked hplan hbefore hp size time
    refine ⟨_, outcomes, t, rfl, htakes, htakes.subscriptions, hrun, ?_⟩
    rw [← Store.length_newRows htakes.length, htakes.subscriptions, List.length_append,
      Nat.add_right_inj]

/-- A feed is created. -/
def creatingFeed : List Action :=
  [.start (.getOrCreateFeed "http://a.com/rss.xml"), .read 0 .epoch, .call 0]

/-- The feed that it leaves. -/
def createdFeed : FeedRow := Call.newFeed 1 "http://a.com/rss.xml" "1970-01-01T00:00:00.000000Z"

theorem exists_createdFeed : ∃ x : System, x.Reachable ∧ x.store = ⟨[createdFeed], [], [], [], 0⟩ :=
  exists_of_play (by simp [creatingFeed, Action.Proper, Request.Proper])
    (show (initial.play creatingFeed).map (·.store) = _ by decide +kernel)

/-- A pair that is asked for twice where its feed exists, and two chunks of one new row each before
a row whose feed does not exist. -/
theorem insertPlanned_by_chunks_pairTwice : ∃ x : System, x.Reachable ∧
    (∃ outcomes t, Store.TakesAll Instant.epoch.stamp x.store
        [.bound 1 1 "http://a.com/", .bound 1 1 "http://www.a.com/"] outcomes t ∧
      ∀ size clock, (Store.insertPlanned [.bound 1 1 "http://a.com/",
        .bound 1 1 "http://www.a.com/"] size .epoch).runOn clock x.store = (.ok outcomes, t)) ∧
    ∃ outcomes t, Store.TakesAll Instant.epoch.stamp x.store
        [.bound 1 1 "http://a.com/", .pending 1 "http://b.com/"] outcomes t ∧
      (∀ clock, (Store.insertPlanned [.bound 1 1 "http://a.com/", .pending 1 "http://b.com/",
        .bound 1 2 "http://c.com/"] 1 .epoch).runOn clock x.store =
          (.error (.partialBatch 2), t)) ∧
      t.subscriptions.length = x.store.subscriptions.length + 2 ∧
      ∀ o ∈ outcomes, ∃ id, o = .new id := by
  obtain ⟨x, hx, hstore⟩ := exists_createdFeed
  have hbound (url : String) : x.store.Knows (.bound 1 1 url) := by
    intro f hf
    obtain rfl : 1 = f := Option.some.inj hf
    exact ⟨createdFeed, hstore ▸ List.mem_cons_self, rfl⟩
  have hpending : x.store.Knows (.pending 1 "http://b.com/") := fun f hf => by cases hf
  have hmissing : ¬ x.store.Knows (.bound 1 2 "http://c.com/") := by
    intro hknows
    obtain ⟨row, hrow, hid⟩ := hknows 2 rfl
    rw [hstore] at hrow
    obtain rfl := List.mem_singleton.1 hrow
    exact absurd hid (by decide)
  obtain ⟨outcomes, t, htakes, -, hrun⟩ := (hx.insertPlanned_by_chunks
    [.bound 1 1 "http://a.com/", .bound 1 1 "http://www.a.com/"] .epoch).1 (by simp [hbound])
  obtain ⟨_, outcomes', t', rfl, htakes', -, hrun', hall⟩ := (hx.insertPlanned_by_chunks _ .epoch).2
    [.bound 1 1 "http://a.com/", .pending 1 "http://b.com/"] (.bound 1 2 "http://c.com/") [] rfl
    (by simp [hbound, hpending]) hmissing 1
  have hadded : t'.subscriptions.length = x.store.subscriptions.length + 2 := by
    obtain rfl : _ = t' := congrArg Prod.snd (hrun' fun _ => .epoch)
    rw [hstore]
    decide +kernel
  exact ⟨x, hx, ⟨outcomes, t, htakes, hrun⟩, outcomes', t', htakes', hrun', hadded, hall.1 hadded⟩

/-- A chunk with a row that is there already counts it as one that it has added. -/
theorem insertPlanned_overcounts : ∃ x : System, x.Reachable ∧ ∃ t,
    (Store.insertPlanned [.bound 1 1 "http://a.com/", .bound 1 1 "http://www.a.com/",
      .bound 1 2 "http://b.com/"] 2 .epoch).runOn (fun _ => .epoch) x.store =
        (.error (.partialBatch 2), t) ∧
      t.subscriptions.length = x.store.subscriptions.length + 1 := by
  obtain ⟨x, hx, hstore⟩ := exists_createdFeed
  let row : SubscriptionRow := Planned.row (.bound 1 1 "http://a.com/") 1 Instant.epoch.stamp
  refine ⟨x, hx, ⟨[createdFeed], [], [], [row], 1⟩, ?_⟩
  rw [hstore]
  exact ⟨by decide +kernel, rfl⟩

end System

end Syndication
