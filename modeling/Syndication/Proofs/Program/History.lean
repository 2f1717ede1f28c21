import Syndication.Proofs.Program.Crawls
/-!
# History is only appended to

Mappings and snapshots are never changed and never taken away, and new ones get greater ids. A feed
that has been created is there in every later state, under its id and address; besides, it is what
the transitions that have been committed for it have made of it, and nothing else has a part in
that. One call does so to a store (`Call.grows_run`), therefore a step of a system does
(`System.grows_act`), and therefore every run, whatever requests race in it
(`System.history_append_only`).
-/

namespace Syndication

/-! ## Tables that are appended to -/

/-- Rows have been appended, each with an id greater than those before it. -/
def Appends {α : Type} (id : α → Int) (rows rows' : List α) : Prop :=
  ∃ added, rows' = rows ++ added ∧ added.Pairwise (fun a b => id a < id b) ∧
    ∀ a ∈ rows, ∀ b ∈ added, id a < id b

namespace Appends

variable {α : Type} {id : α → Int} {rows rows' rows'' : List α}

theorem refl (id : α → Int) (rows : List α) : Appends id rows rows :=
  ⟨[], (List.append_nil rows).symm, .nil, by simp⟩

theorem trans (h : Appends id rows rows') (h' : Appends id rows' rows'') :
    Appends id rows rows'' := by
  obtain ⟨added, rfl, hsorted, hnew⟩ := h
  obtain ⟨added', rfl, hsorted', hnew'⟩ := h'
  refine ⟨added ++ added', List.append_assoc .., ?_, fun a ha b hb => ?_⟩
  · exact List.pairwise_append.2
      ⟨hsorted, hsorted', fun a ha => hnew' a (List.mem_append_right _ ha)⟩
  · rcases List.mem_append.1 hb with hb | hb
    · exact hnew a ha b hb
    · exact hnew' a (List.mem_append_left _ ha) b hb

/-- Changes that keep ids do not come between. -/
theorem map {f : α → α} (hf : ∀ a, id (f a) = id a) (h : Appends id rows rows') :
    Appends id (rows.map f) (rows'.map f) := by
  obtain ⟨added, rfl, hsorted, hnew⟩ := h
  refine ⟨added.map f, List.map_append, ?_, fun a ha b hb => ?_⟩
  · exact List.pairwise_map.2 (hsorted.imp fun hlt => by rwa [hf, hf])
  · obtain ⟨a₀, ha₀, rfl⟩ := List.mem_map.1 ha
    obtain ⟨b₀, hb₀, rfl⟩ := List.mem_map.1 hb
    rw [hf, hf]
    exact hnew a₀ ha₀ b₀ hb₀

/-- A row with the next id. -/
theorem next {row : α} (hrow : id row = Store.nextId (rows.map id)) :
    Appends id rows (rows ++ [row]) := by
  refine ⟨[row], rfl, List.pairwise_singleton .., fun a ha b hb => ?_⟩
  obtain rfl := List.mem_singleton.1 hb
  exact hrow ▸ Store.lt_nextId (List.mem_map_of_mem ha)

/-- What was there is there. -/
theorem mem (h : Appends id rows rows') {a : α} (ha : a ∈ rows) : a ∈ rows' := by
  obtain ⟨added, rfl, -⟩ := h
  exact List.mem_append_left _ ha

end Appends

/-! ## Feeds after their transitions -/

namespace FeedRow

/-- A feed after those of the transitions that are its own. -/
def after (log : List Commit) (f : FeedRow) : FeedRow := (Commit.ofFeed f.id log).foldl apply f

variable {log log' : List Commit} {f : FeedRow}

/-- What no transition changes of a feed stays. -/
theorem key_after {κ : Type} {key : FeedRow → κ} (hkey : ∀ f t, key (apply f t) = key f)
    (log : List Commit) (f : FeedRow) : key (f.after log) = key f :=
  List.foldlRecOn (Commit.ofFeed f.id log) apply (motive := fun g => key g = key f) rfl
    fun g hg t _ => (hkey g t).trans hg

@[simp] theorem id_after (log : List Commit) (f : FeedRow) : (f.after log).id = f.id :=
  key_after id_apply log f

@[simp] theorem url_after (log : List Commit) (f : FeedRow) : (f.after log).url = f.url :=
  key_after url_apply log f

@[simp] theorem createdAt_after (log : List Commit) (f : FeedRow) :
    (f.after log).createdAt = f.createdAt :=
  key_after createdAt_apply log f

theorem after_append : f.after (log ++ log') = (f.after log).after log' := by
  rw [after, Commit.ofFeed_append, List.foldl_append, after, id_after, after]

theorem after_singleton (c : Commit) :
    f.after [c] = if f.id = c.feed then f.apply c.transition else f := by
  by_cases hid : c.feed = f.id
  · simp [after, Commit.ofFeed, hid]
  · simp [after, Commit.ofFeed, hid, Ne.symm hid]

@[simp] theorem map_after_nil (rows : List FeedRow) : rows.map (after []) = rows :=
  List.map_id rows

/-- Transitions of other feeds leave a feed as it is. -/
theorem after_eq_self (h : ∀ c ∈ log, c.feed ≠ f.id) : f.after log = f := by
  have hnone : Commit.ofFeed f.id log = [] := by simpa [Commit.ofFeed] using h
  rw [after, hnone, List.foldl_nil]

end FeedRow

/-! ## What a run appends -/

/-- A store has come of another by appending to its tables and by transitions of its feeds. -/
structure Store.Grows (log : List Commit) (s s' : Store) : Prop where
  mappings : Appends (·.id) s.mappings s'.mappings
  snapshots : Appends (·.id) s.snapshots s'.snapshots
  feeds : Appends (·.id) (s.feeds.map (FeedRow.after log)) s'.feeds

namespace Store.Grows

variable {log log' : List Commit} {s t u : Store}

theorem refl (s : Store) : s.Grows [] s where
  mappings := .refl _ _
  snapshots := .refl _ _
  feeds := by
    rw [FeedRow.map_after_nil]
    exact .refl _ _

theorem trans (h : s.Grows log t) (h' : t.Grows log' u) : s.Grows (log ++ log') u where
  mappings := h.mappings.trans h'.mappings
  snapshots := h.snapshots.trans h'.snapshots
  feeds := by
    have hfeeds := (h.feeds.map (FeedRow.id_after log')).trans h'.feeds
    rwa [List.map_map, show FeedRow.after log' ∘ FeedRow.after log = FeedRow.after (log ++ log')
      from funext fun f => FeedRow.after_append.symm] at hfeeds

end Store.Grows

namespace Call

theorem appends_mappings (s : Store) (c : Call) :
    Appends (·.id) s.mappings (c.run s).2.mappings := by
  by_cases hc : ∃ source target stamp, c = .addMapping source target stamp
  · obtain ⟨source, target, stamp, rfl⟩ := hc
    exact .next rfl
  · rw [mappings_run s fun source target stamp h => hc ⟨source, target, stamp, h⟩]
    exact .refl _ _

theorem appends_snapshots (s : Store) (c : Call) :
    Appends (·.id) s.snapshots (c.run s).2.snapshots := by
  by_cases hc : ∃ d stamp, c = .addSnapshot d stamp
  · obtain ⟨d, stamp, rfl⟩ := hc
    simp only [run, runAddSnapshot]
    split
    · exact .refl _ _
    · exact .next rfl
  · obtain ⟨added, hadded, hnew⟩ := c.snapshots_run s
    have hnone : added = [] := by
      refine List.eq_nil_iff_forall_not_mem.2 fun r hr => ?_
      obtain ⟨d, stamp, h, -⟩ := hnew r hr
      exact hc ⟨d, stamp, h⟩
    rw [hadded, hnone, List.append_nil]
    exact .refl _ _

/-- A feed that a call creates gets the next id. -/
theorem appends_feeds {s : Store} {c : Call} (h : c.moved? s = none) :
    Appends (·.id) s.feeds (c.run s).2.feeds := by
  by_cases hc : ∃ url stamp, c = .ensureFeed url stamp
  · obtain ⟨url, stamp, rfl⟩ := hc
    simp only [run, runEnsureFeed]
    split
    · exact .refl _ _
    · exact .next rfl
  · rw [feeds_run_of_ne h fun url stamp heq => hc ⟨url, stamp, heq⟩]
    exact .refl _ _

/-- **A call appends**, apart from the feed that it moves. The place is that of its request. -/
theorem grows_run (s : Store) (c : Call) (i : Nat) :
    s.Grows ((c.moved? s).map fun (feed, t) => ⟨i, feed, t⟩).toList (c.run s).2 where
  mappings := c.appends_mappings s
  snapshots := c.appends_snapshots s
  feeds := by
    cases hmoved : c.moved? s with
    | none => simpa using appends_feeds hmoved
    | some move =>
      have hfeeds : (c.run s).2.feeds = s.feeds.map (FeedRow.after [⟨i, move.1, move.2⟩]) := by
        rw [(feeds_run_of_moved hmoved).2]
        exact List.map_congr_left fun f _ =>
          (FeedRow.after_singleton (f := f) ⟨i, move.1, move.2⟩).symm
      rw [hfeeds]
      exact .refl _ _

end Call

namespace System

variable {x y : System} {a : Action} {actions : List Action}

theorem grows_act (hy : x.act a = some y) : x.store.Grows (x.commit? a).toList y.store := by
  cases act_eq_some.1 hy with
  | start request => exact .refl _
  | read t hi => exact .refl _
  | @call i request past c next hi =>
    rw [commit?_call hi]
    exact c.grows_run x.store i

theorem grows_play (hy : x.play actions = some y) :
    x.store.Grows (x.commits actions) y.store := by
  induction actions generalizing x with
  | nil => exact Option.some.inj hy ▸ .refl _
  | cons a actions ih =>
    obtain ⟨z, hz, hrest⟩ := Option.bind_eq_some_iff.1 hy
    rw [commits, hz, Option.elim_some]
    exact (grows_act hz).trans (ih hrest)

/-- Crawls are in turn wherever a run has come to. -/
theorem Reachable.exists_inTurn (hx : x.Reachable) : ∃ log, x.InTurn log := by
  induction hx with
  | refl => exact ⟨[], inTurn_initial⟩
  | step h ha _ hz ih =>
    obtain ⟨log, hlog⟩ := ih
    exact ⟨_, hlog.act (Reachable.sound h) ha hz⟩

/-- **History is append-only.** Whatever happens between two states: the later one has the mappings
and the snapshots of the earlier one as they were, and the new ones have greater ids, in order. It
has the feeds of the earlier one under the ids, addresses and times of creation that they had; only
the transitions committed on the way have changed them, a feed of which none was committed is as
it was, and only requests of a crawl of the feed have committed one. -/
theorem history_append_only (hx : x.Reachable) (hproper : ∀ a ∈ actions, a.Proper)
    (hy : x.play actions = some y) :
    Appends (·.id) x.store.mappings y.store.mappings ∧
    Appends (·.id) x.store.snapshots y.store.snapshots ∧
    Appends (·.id) (x.store.feeds.map (FeedRow.after (x.commits actions))) y.store.feeds ∧
    (∀ f ∈ x.store.feeds, ∃ f', y.store.feed? f.id = some f' ∧ f'.id = f.id ∧ f'.url = f.url ∧
      f'.createdAt = f.createdAt ∧ ((∀ c ∈ x.commits actions, c.feed ≠ f.id) → f' = f)) ∧
    ∀ c ∈ x.commits actions, ∃ request past rest,
      y.running[c.place]? = some ⟨request, past, rest⟩ ∧
        request.crawl? = some (c.feed, c.transition.target) := by
  have hgrows := grows_play hy
  have hvalid := (hx.sound.runs (runs_of_play hproper hy)).valid
  refine ⟨hgrows.mappings, hgrows.snapshots, hgrows.feeds, fun f hf => ?_, fun c hc => ?_⟩
  · have hmem := hgrows.feeds.mem (List.mem_map_of_mem hf)
    exact ⟨f.after (x.commits actions), hvalid.feed?_eq_some.2 ⟨hmem, f.id_after _⟩, f.id_after _,
      f.url_after _, f.createdAt_after _, FeedRow.after_eq_self⟩
  · obtain ⟨log, hturn⟩ := hx.exists_inTurn
    obtain ⟨request, past, rest, hi, hcrawl, -⟩ :=
      (hturn.play hx.sound hproper hy).seen c (List.mem_append_right _ hc)
    exact ⟨request, past, rest, hi, hcrawl⟩

/-- A fetch of a feed. -/
def fetchOf (feed : Int) : Snapshot.Draft :=
  ⟨feed, "http://b.com/rss.xml", none, some 200, none, none, .ofList [("etag", "b")], none,
    Codec.Gzip.write⟩

/-- Two feeds are created, a mapping and a fetch are recorded, and a user subscribes. -/
def collecting : List Action :=
  [.start (.getOrCreateFeed "http://a.com/rss.xml"), .read 0 .epoch, .call 0,
    .start (.getOrCreateFeed "http://b.com/rss.xml"), .read 1 .epoch, .call 1,
    .start (.recordMapping "http://b.com/" "http://b.com/rss.xml"), .read 2 .epoch, .call 2,
    .start (.recordSnapshot (fetchOf 2)), .read 3 .epoch, .call 3,
    .start (.subscribe "http://b.com/" 1), .call 4, .call 4, .call 4, .read 4 .epoch, .call 4]

/-- A crawl of the first feed begins while the subscription to the second is deleted, the second is
asked for again, and another mapping and another fetch are recorded. -/
def collectingOn : List Action :=
  [.start (.beginCrawl 1), .start (.unsubscribe 1 1),
    .start (.getOrCreateFeed "http://b.com/rss.xml"), .read 5 .epoch, .call 6, .read 7 .epoch,
    .call 5, .call 7, .start (.recordMapping "http://b.com/" "http://a.com/rss.xml"),
    .read 8 .epoch, .call 8, .start (.recordSnapshot (fetchOf 2)), .read 9 .epoch, .call 9]

/-- The feed that is crawled changes, and nothing else that was there but the subscription. -/
theorem history_append_only_collectingOn : ∃ x y : System, x.Reachable ∧
    (∀ a ∈ collectingOn, a.Proper) ∧ x.play collectingOn = some y ∧
    (x.commits collectingOn).map (·.feed) = [1] ∧
    x.store.subscriptions.map (·.feedId) = [some 2] ∧ y.store.subscriptions = [] ∧
    (x.store.mappings.map (·.id) = [1] ∧ y.store.mappings.map (·.id) = [1, 2] ∧
      Appends (·.id) x.store.mappings y.store.mappings) ∧
    (x.store.snapshots.map (·.id) = [1] ∧ y.store.snapshots.map (·.id) = [1, 2] ∧
      Appends (·.id) x.store.snapshots y.store.snapshots) ∧
    ∀ f ∈ x.store.feeds, f.id ≠ 1 → y.store.feed? f.id = some f := by
  have hproper : ∀ a ∈ collecting, a.Proper := by
    simp [collecting, Action.Proper, Request.Proper]
  have hlater : ∀ a ∈ collectingOn, a.Proper := by
    simp [collectingOn, Action.Proper, Request.Proper]
  have hfirst : (initial.play collecting).map (fun x =>
      ((x.commits collectingOn).map (·.feed), x.store.subscriptions.map (·.feedId),
        x.store.mappings.map (·.id), x.store.snapshots.map (·.id))) =
      some ([1], [some 2], [1], [1]) := by decide +kernel
  have hsecond : ((initial.play collecting).bind (·.play collectingOn)).map (fun y =>
      (y.store.subscriptions, y.store.mappings.map (·.id), y.store.snapshots.map (·.id))) =
      some ([], [1, 2], [1, 2]) := by decide +kernel
  obtain ⟨x, hx, hxRows⟩ := Option.map_eq_some_iff.1 hfirst
  rw [hx, Option.bind_some] at hsecond
  obtain ⟨y, hy, hyRows⟩ := Option.map_eq_some_iff.1 hsecond
  obtain ⟨hfeeds, hbound, hmappings, hsnapshots⟩ := by simpa only [Prod.mk.injEq] using hxRows
  obtain ⟨hnone, hmappings', hsnapshots'⟩ := by simpa only [Prod.mk.injEq] using hyRows
  have hreachable : x.Reachable := runs_of_play hproper hx
  obtain ⟨hlog, hfetches, -, hpersist, -⟩ := history_append_only hreachable hlater hy
  refine ⟨x, y, hreachable, hlater, hy, hfeeds, hbound, hnone, ⟨hmappings, hmappings', hlog⟩,
    ⟨hsnapshots, hsnapshots', hfetches⟩, fun f hf hid => ?_⟩
  obtain ⟨f', hfound, -, -, -, hsame⟩ := hpersist f hf
  have hquiet : ∀ c ∈ x.commits collectingOn, c.feed ≠ f.id := by
    intro c hc hfeed
    have hmem : c.feed ∈ (x.commits collectingOn).map (·.feed) := List.mem_map_of_mem hc
    rw [hfeeds, List.mem_singleton] at hmem
    exact hid (hfeed.symm.trans hmem)
  rw [hfound, hsame hquiet]

end System

end Syndication
