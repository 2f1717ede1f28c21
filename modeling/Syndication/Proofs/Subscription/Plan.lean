import Syndication.Proofs.Subscription.Single
/-!
# Plans

A plan says all at once which rows subscribing to the addresses of a list one after another would
insert. All of them can be inserted, in chunks of any size, and the store afterwards is the same
(`Store.insertBatch_listFrom`).
-/

namespace Syndication

/-- Of addresses that are not among those seen the first places. -/
theorem eraseDups_filter_cons {seen urls : List String} {url : String} (h : url ∉ seen) :
    ((url :: urls).filter (· ∉ seen)).eraseDups =
      url :: (urls.filter (· ∉ url :: seen)).eraseDups := by
  rw [List.filter_cons_of_pos (by simpa using h), List.eraseDups_cons, List.filter_filter]
  congr 2
  refine List.filter_congr fun other _ => ?_
  by_cases hother : other = url
  · simp [hother]
  · simp [hother]

namespace Store

variable {stamp : String} {s t : Store} {rows rows' : List Planned} {outcomes : List Inserted}

/-! ## Chunks -/

theorem insertChunk_cons {p : Planned} {o : Inserted} {u : Store}
    (hrow : insertRow stamp s p = some (o, u))
    (hrows : insertChunk stamp u rows = some (outcomes, t)) :
    insertChunk stamp s (p :: rows) = some (o :: outcomes, t) := by
  simp [insertChunk, hrow, hrows]

theorem insertChunk_append :
    insertChunk stamp s (rows ++ rows') = (insertChunk stamp s rows).bind fun first =>
      (insertChunk stamp first.2 rows').map fun second => (first.1 ++ second.1, second.2) := by
  induction rows generalizing s with
  | nil => simp [insertChunk]
  | cons row rows ih =>
    simp only [List.cons_append, insertChunk, Option.bind_eq_bind]
    cases insertRow stamp s row with
    | none => rfl
    | some first =>
      obtain ⟨outcome, s₁⟩ := first
      simp only [Option.bind_some, ih]
      cases insertChunk stamp s₁ rows with
      | none => rfl
      | some second =>
        obtain ⟨outcomes, s₂⟩ := second
        simp only [Option.bind_some]
        cases insertChunk stamp s₂ rows' <;> rfl

/-- Rows that can be inserted as one chunk can be inserted in chunks of any size. -/
theorem insertChunks_of_chunk (size : Nat) (done : List Inserted)
    (h : insertChunk stamp s rows = some (outcomes, t)) :
    insertChunks stamp size done s rows = (.ok (done ++ outcomes), t) := by
  fun_induction insertChunks stamp size done s rows generalizing outcomes with
  | case1 done s =>
    obtain ⟨rfl, rfl⟩ := Prod.mk.inj (Option.some.inj h)
    simp
  | case2 done s row rows first s' hfirst ih =>
    have hsplit : row :: rows = (row :: rows.take (size - 1)) ++ rows.drop (size - 1) := by simp
    rw [hsplit, insertChunk_append, hfirst, Option.bind_some, Option.map_eq_some_iff] at h
    obtain ⟨⟨second, t'⟩, hsecond, heq⟩ := h
    obtain ⟨rfl, rfl⟩ := Prod.mk.inj heq
    rw [ih hsecond, List.append_assoc]
  | case3 done s row rows hfirst =>
    have hsplit : row :: rows = (row :: rows.take (size - 1)) ++ rows.drop (size - 1) := by simp
    rw [hsplit, insertChunk_append, hfirst] at h
    cases h

/-! ## What inserting changes -/

/-- A user holds a feed after a row is added who has held it, or whose row names it. -/
theorem isSome_holder?_addSubscription (s : Store) (p : Planned) (stamp : String) (user f : Int) :
    ((s.addSubscription p stamp).holder? user f).isSome ↔
      (s.holder? user f).isSome ∨ p.user = user ∧ p.feedId = some f := by
  unfold holder? addSubscription
  rw [List.find?_append, Option.isSome_or, Bool.or_eq_true]
  refine or_congr_right ?_
  simp

/-- The rows that planned rows become after a row with the id `last`. -/
def rowsFrom (stamp : String) : (last : Int) → List Planned → List SubscriptionRow
  | _, [] => []
  | last, p :: rows => p.row (last + 1) stamp :: rowsFrom stamp (last + 1) rows

theorem exists_planned_of_mem_rowsFrom {last : Int} {r : SubscriptionRow}
    (h : r ∈ rowsFrom stamp last rows) : last < r.id ∧ ∃ p ∈ rows, r = p.row r.id stamp := by
  induction rows generalizing last with
  | nil => cases h
  | cons p rows ih =>
    rcases List.mem_cons.1 h with rfl | h
    · exact ⟨Int.lt_succ last, p, List.mem_cons_self, rfl⟩
    · obtain ⟨hlast, p', hp', hr⟩ := ih h
      exact ⟨by omega, p', List.mem_cons_of_mem _ hp', hr⟩

/-- A chunk of which every row is new adds just these rows. -/
theorem insertChunk_of_new (h : insertChunk stamp s rows = some (outcomes, t))
    (hnew : ∀ o ∈ outcomes, ∃ id, o = .new id) :
    t.feeds = s.feeds ∧
      t.subscriptions = s.subscriptions ++ rowsFrom stamp s.lastSubscriptionId rows ∧
      outcomes = (rowsFrom stamp s.lastSubscriptionId rows).map fun r => .new r.id := by
  induction rows generalizing s outcomes with
  | nil =>
    obtain ⟨rfl, rfl⟩ := Prod.mk.inj (Option.some.inj h)
    simp [rowsFrom]
  | cons p rows ih =>
    simp only [insertChunk, Option.bind_eq_bind, Option.bind_eq_some_iff] at h
    obtain ⟨⟨o, s₁⟩, hrow, ⟨rest, t'⟩, hrest, h⟩ := h
    obtain ⟨rfl, rfl⟩ := Prod.mk.inj (Option.some.inj h)
    obtain ⟨hfirst, hothers⟩ := List.forall_mem_cons.1 hnew
    rcases insertRow_cases hrow with ⟨_, _, -, -, rfl, -⟩ | ⟨-, rfl, rfl⟩
    · obtain ⟨id, hid⟩ := hfirst
      cases hid
    · obtain ⟨hfeeds, hsubscriptions, houtcomes⟩ := ih hrest hothers
      refine ⟨hfeeds, ?_, ?_⟩
      · rw [hsubscriptions]
        exact List.append_assoc _ _ _
      · rw [houtcomes]
        rfl

/-! ## Plans against one after another -/

/-- **A plan does what its addresses do one after another.** What carries the induction is that the
feeds that count as held are those that the user holds by now, as far as addresses still to come
lead to them. -/
theorem insertChunk_listFrom {user : Int} {feedOf : String → Option Int} (seen : List String)
    {held : List Int} {urls : List String}
    (hfeedOf : ∀ url ∈ urls, feedOf url = s.feedOf? url)
    (hheld : ∀ url ∈ urls, ∀ f, s.feedOf? url = some f →
      (f ∈ held ↔ (s.holder? user f).isSome)) :
    ∃ outcomes, insertChunk stamp s (Planned.listFrom user feedOf seen held urls) =
        some (outcomes, (urls.filter (· ∉ seen)).eraseDups.foldl (subscribed user stamp) s) ∧
      ∀ o ∈ outcomes, ∃ id, o = .new id := by
  fun_induction Planned.listFrom user feedOf seen held urls generalizing s with
  | case1 seen held => exact ⟨[], rfl, by simp⟩
  | case2 seen held url urls hseen ih =>
    obtain ⟨-, hfeedOf⟩ := List.forall_mem_cons.1 hfeedOf
    obtain ⟨-, hheld⟩ := List.forall_mem_cons.1 hheld
    rw [List.filter_cons_of_neg (by simpa using hseen)]
    exact ih hfeedOf hheld
  | case3 seen held url urls hseen feed hfeed hmem ih =>
    obtain ⟨hurl, hfeedOf⟩ := List.forall_mem_cons.1 hfeedOf
    obtain ⟨hurlHeld, hheld⟩ := List.forall_mem_cons.1 hheld
    have hsome : s.feedOf? url = some feed := hurl.symm.trans hfeed
    have hstays : s.subscribed user stamp url = s := by
      rw [subscribed, hsome]
      exact if_pos ((hurlHeld feed hsome).1 hmem)
    rw [eraseDups_filter_cons hseen, List.foldl_cons, hstays]
    exact ih hfeedOf hheld
  | case4 seen held url urls hseen feed hfeed hmem ih =>
    obtain ⟨hurl, hfeedOf⟩ := List.forall_mem_cons.1 hfeedOf
    obtain ⟨hurlHeld, hheld⟩ := List.forall_mem_cons.1 hheld
    have hsome : s.feedOf? url = some feed := hurl.symm.trans hfeed
    have hfree : s.holder? user feed = none := by
      simpa using mt (hurlHeld feed hsome).2 hmem
    have hknown : (s.feed? feed).isSome := by
      obtain ⟨row, hrow, hid⟩ := exists_of_feedOf? hsome
      exact List.find?_isSome.2 ⟨row, hrow, by simpa using hid⟩
    have hadds : s.subscribed user stamp url = s.addSubscription (.bound user feed url) stamp := by
      rw [subscribed, hsome]
      simp [hfree]
    have hinsert : insertRow stamp s (.bound user feed url) = some (.new (s.lastSubscriptionId + 1),
        s.addSubscription (.bound user feed url) stamp) := by
      simp [insertRow, Planned.bound, hfree, hknown]
    obtain ⟨outcomes, hchunk, hnew⟩ := ih (s := s.addSubscription (.bound user feed url) stamp)
      hfeedOf fun url' hurl' f hf => by
        rw [isSome_holder?_addSubscription, List.mem_cons, hheld url' hurl' f hf]
        exact or_comm.trans (or_congr_right
          ⟨fun heq => ⟨rfl, congrArg some heq.symm⟩, fun heq => (Option.some.inj heq.2).symm⟩)
    refine ⟨.new (s.lastSubscriptionId + 1) :: outcomes, ?_,
      List.forall_mem_cons.2 ⟨⟨_, rfl⟩, hnew⟩⟩
    rw [eraseDups_filter_cons hseen, List.foldl_cons, hadds]
    exact insertChunk_cons hinsert hchunk
  | case5 seen held url urls hseen hfeed ih =>
    obtain ⟨hurl, hfeedOf⟩ := List.forall_mem_cons.1 hfeedOf
    obtain ⟨-, hheld⟩ := List.forall_mem_cons.1 hheld
    have hadds : s.subscribed user stamp url = s.addSubscription (.pending user url) stamp := by
      rw [subscribed, hurl.symm.trans hfeed]
    obtain ⟨outcomes, hchunk, hnew⟩ := ih (s := s.addSubscription (.pending user url) stamp)
      hfeedOf fun url' hurl' f hf => by
        rw [isSome_holder?_addSubscription, hheld url' hurl' f hf]
        simp [Planned.pending]
    refine ⟨.new (s.lastSubscriptionId + 1) :: outcomes, ?_,
      List.forall_mem_cons.2 ⟨⟨_, rfl⟩, hnew⟩⟩
    rw [eraseDups_filter_cons hseen, List.foldl_cons, hadds]
    exact insertChunk_cons rfl hchunk

/-- A plan for a list is inserted in chunks of any size, and all its rows are new. -/
theorem insertBatch_listFrom {user : Int} {feedOf : String → Option Int} {held : List Int}
    {urls : List String} (size : Nat) {plan : List Planned}
    (hplan : plan = Planned.listFrom user feedOf [] held urls)
    (hfeedOf : ∀ url ∈ urls, feedOf url = s.feedOf? url)
    (hheld : ∀ url ∈ urls, ∀ f, s.feedOf? url = some f →
      (f ∈ held ↔ (s.holder? user f).isSome))
    (ht : t = urls.eraseDups.foldl (subscribed user stamp) s) :
    s.insertBatch plan size stamp =
        (.ok ((rowsFrom stamp s.lastSubscriptionId plan).map fun r => .new r.id), t) ∧
      t.feeds = s.feeds ∧
      t.subscriptions = s.subscriptions ++ rowsFrom stamp s.lastSubscriptionId plan := by
  obtain ⟨outcomes, hchunk, hnew⟩ := insertChunk_listFrom [] hfeedOf hheld
  have hall : urls.filter (· ∉ ([] : List String)) = urls := List.filter_eq_self.2 (by simp)
  rw [hall, ← ht, ← hplan] at hchunk
  obtain ⟨hfeeds, hsubscriptions, rfl⟩ := insertChunk_of_new hchunk hnew
  exact ⟨insertChunks_of_chunk size [] hchunk, hfeeds, hsubscriptions⟩

end Store

end Syndication
