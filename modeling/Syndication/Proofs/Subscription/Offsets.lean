import Syndication.Proofs.Program.Attempts
/-!
# Setting offsets among others

Any number of requests may set the offset of one subscription at the same time, beside any others.
None of their updates is lost and none is made twice (`System.offset_set_once`): a request that
answers has committed once, on the clock that it had read, and one that fails has not. An attempt
misses only when another request has moved the clock of the subscription, or has deleted it, between
the attempt's reading and its writing (`System.Overtaken`).
-/

namespace Syndication

namespace System

variable {actions : List Action} {x : System} {i n m : Nat} {id user offset : Int}

/-- A step moves the clock of a subscription, or takes the subscription away. -/
def Moves (actions : List Action) (n : Nat) (id : Int) : Prop :=
  ∃ s t r, storeAt actions n = some s ∧ storeAt actions (n + 1) = some t ∧ r ∈ s.subscriptions ∧
    r.id = id ∧ ∀ r' ∈ t.subscriptions, r'.id = id → r'.updatedAt ≠ r.updatedAt

theorem Moves.commits (h : Moves actions n id) (hstep : actions[n]? = some (.call i)) :
    Commits actions n i := by
  obtain ⟨s, t, r, hs, ht, hr, hid, hmoved⟩ := h
  refine ⟨hstep, fun hsame => ?_⟩
  obtain rfl : t = s := Option.some.inj (ht.symm.trans (hsame.trans hs))
  exact hmoved r hr hid rfl

/-- A clock that is not there any more has been moved by a call since. -/
theorem LeadsInYears.exists_moves (h : LeadsInYears actions x) {s t : Store} {stamp : String}
    (hnm : n ≤ m) (hs : storeAt actions n = some s) (hclock : s.HasClock id user stamp)
    (ht : storeAt actions m = some t) (hgone : ¬ t.HasClock id user stamp) :
    ∃ k j, n ≤ k ∧ k < m ∧ actions[k]? = some (.call j) ∧ Moves actions k id := by
  obtain ⟨k, j, u, v, hnk, hkm, hstep, hu, hv, ⟨r, hr, rfl, rfl, rfl⟩, hnot⟩ :=
    exists_call_between (·.HasClock id user stamp) hnm hs hclock ht hgone
  obtain ⟨y, hy, rfl⟩ := storeAt_eq_some.1 hu
  refine ⟨k, j, hnk, hkm, hstep, y.store, v, r, hu, hv, hr, rfl, fun r' hr' hid hsame => ?_⟩
  obtain ⟨z, hz, rfl⟩ := storeAt_eq_some.1 hv
  rw [stateAt_succ hstep, hy, Option.bind_some] at hz
  have hsound := (h.reachable hy).sound
  have hlives := (hsound.extends_act hz).lives hsound.valid hr hr' hid
  exact hnot ⟨r', hr', hid, hlives.user.symm, hsame⟩

/-! ## Attempts -/

variable {row : SubscriptionRow × Option FeedRow} {found : Subscription}

/-- What an attempt has found was there. -/
theorem LeadsInYears.mem_of_found (h : LeadsInYears actions x)
    (hfound : Gives actions n i (.called (.findSubscription id (some user)) (some row))) :
    ∃ s, storeAt actions (n + 1) = some s ∧ s.Valid ∧ row.1 ∈ s.subscriptions ∧ row.1.id = id ∧
      row.1.user = user := by
  obtain ⟨y, hy, -, -, hrow, hleft⟩ := hfound.answers
  obtain ⟨r, hr, hid, rfl⟩ := Store.exists_of_runFindSubscription hrow
  exact ⟨y.store, hleft, (h.reachable hy).sound.valid, hr, hid, Store.user_of_findSubscription hrow⟩

/-- The clock that an attempt has read is written as it stands. -/
theorem LeadsInYears.stamp_of_found (h : LeadsInYears actions x)
    (hload : SubscriptionRow.load false row = .ok found)
    (hfound : Gives actions n i (.called (.findSubscription id (some user)) (some row))) :
    found.updatedAt.stamp = row.1.updatedAt := by
  obtain ⟨s, -, hvalid, hmem, -, -⟩ := h.mem_of_found hfound
  exact (Stamp.Holds.of_decode (hvalid.written_updatedAt hmem)
    (SubscriptionRow.load_eq_ok.1 hload).updatedAt).2

/-- In the years 0 to 9999 what is found can be read. -/
theorem LeadsInYears.loads (h : LeadsInYears actions x)
    (hfound : Gives actions n i (.called (.findSubscription id (some user)) (some row))) :
    ∃ found, SubscriptionRow.load false row = .ok found := by
  obtain ⟨y, hy, -, -, hrow, -⟩ := hfound.answers
  obtain ⟨r, hr, -, rfl⟩ := Store.exists_of_runFindSubscription hrow
  exact (h.reachable hy).sound.valid.subscription_loads (h.inYears hy) false hr

/-- Between the reading and the writing of an attempt another call has moved the clock of the
subscription, or has taken the subscription away. -/
structure Overtaken (actions : List Action) (i : Nat) (id user offset : Int)
    (reading writing : Nat) : Prop where
  reads : ∃ row, Gives actions reading i (.called (.findSubscription id (some user)) (some row))
  writes : ∃ seen stamp,
    Gives actions writing i (.called (.swapOffset id user offset seen stamp) false)
  moves : ∃ k j, reading < k ∧ k < writing ∧ j ≠ i ∧ actions[k]? = some (.call j) ∧
    Moves actions k id

/-- **Only others make an attempt miss.** -/
theorem LeadsInYears.overtaken (h : LeadsInYears actions x) {a : OffsetAttempt} (hnm : n < m)
    (hfound : Gives actions n i (.called (.findSubscription id (some user)) (some a.row)))
    (hmissed : Gives actions m i (.called
      (.swapOffset id user offset a.found.updatedAt.stamp a.next.stamp) false))
    (hbetween : ∀ k, n < k → k < m → actions[k]? ≠ some (.call i)) :
    Overtaken actions i id user offset n m := by
  obtain ⟨s, hs, -, hmem, hid, huser⟩ := h.mem_of_found hfound
  have hclock : s.HasClock id user a.row.1.updatedAt := ⟨a.row.1, hmem, hid, huser, rfl⟩
  obtain ⟨y, hy, -, -, hanswer, -⟩ := hmissed.answers
  have hgone : ¬ y.store.HasClock id user a.row.1.updatedAt := by
    rw [← h.stamp_of_found a.loads hfound, ← Store.runSwapOffset_fst offset a.next.stamp]
    simpa [Call.run] using hanswer
  obtain ⟨k, j, hnk, hkm, hstep, hmoves⟩ :=
    h.exists_moves hnm hs hclock (storeAt_eq_some.2 ⟨y, hy, rfl⟩) hgone
  refine ⟨⟨_, hfound⟩, ⟨_, _, hmissed⟩, k, j, hnk, hkm, ?_, hstep, hmoves⟩
  rintro rfl
  exact hbetween k hnk hkm hstep

/-- The steps of an attempt that is over, and the steps after it. -/
theorem steps_of_attempt {a : OffsetAttempt} {swapped : Bool} {steps : List Nat}
    {more : List Event} (hgives : List.Forall₂ (fun n e => Gives actions n i e) steps
      (a.events id user offset swapped ++ more)) : ∃ n k m later, steps = n :: k :: m :: later ∧
        Gives actions n i (.called (.findSubscription id (some user)) (some a.row)) ∧
        Gives actions k i (.read a.time) ∧
        Gives actions m i (.called
          (.swapOffset id user offset a.found.updatedAt.stamp a.next.stamp) swapped) ∧
        List.Forall₂ (fun n e => Gives actions n i e) later more := by
  cases hgives with
  | cons hfound hgives =>
    cases hgives with
    | cons hread hgives =>
      cases hgives with
      | cons hswap hgives => exact ⟨_, _, _, _, rfl, hfound, hread, hswap, hgives⟩

/-- **Attempts that have missed** have been overtaken one after another. -/
theorem LeadsInYears.rounds (h : LeadsInYears actions x) {missed : List OffsetAttempt}
    {steps : List Nat} {first : Nat} (hsorted : steps.Pairwise (· < ·))
    (hfirst : ∀ n ∈ steps, first ≤ n)
    (hgives : List.Forall₂ (fun n e => Gives actions n i e) steps
      (missed.flatMap (OffsetAttempt.events id user offset false)))
    (hall : ∀ n, first ≤ n → actions[n]? = some (.call i) → n ∈ steps) :
    ∃ rounds : List (Nat × Nat), rounds.length = missed.length ∧
      rounds.Pairwise (fun r r' => r.2 < r'.1) ∧
      (∀ r ∈ rounds, first ≤ r.1 ∧ Overtaken actions i id user offset r.1 r.2) ∧
      ∀ n, first ≤ n → actions[n]? = some (.call i) → ∃ r ∈ rounds, n = r.1 ∨ n = r.2 := by
  induction missed generalizing steps first with
  | nil =>
    cases hgives
    exact ⟨[], rfl, .nil, by simp, fun n hn hstep => absurd (hall n hn hstep) (by simp)⟩
  | cons a missed ih =>
    rw [List.flatMap_cons] at hgives
    obtain ⟨n, k, m, later, rfl, hfound, hread, hswap, hlater⟩ := steps_of_attempt hgives
    simp only [List.pairwise_cons, List.mem_cons, forall_eq_or_imp] at hsorted hfirst
    obtain ⟨⟨hnk, hnm, hn⟩, ⟨hkm, hk⟩, hm, hsorted⟩ := hsorted
    have hcalls (l : Nat) (hl : first ≤ l) (hstep : actions[l]? = some (.call i)) :
        l = n ∨ l = m ∨ l ∈ later := by
      have hmem := hall l hl hstep
      simp only [List.mem_cons] at hmem
      rcases hmem with rfl | rfl | rfl | hmem
      · exact .inl rfl
      · cases hread with
        | read hstep' =>
          rw [hstep] at hstep'
          cases hstep'
      · exact .inr (.inl rfl)
      · exact .inr (.inr hmem)
    obtain ⟨rounds, hlength, hordered, hovertaken, hcovers⟩ := ih hsorted
      (fun l hl => Nat.succ_le_of_lt (hm l hl)) hlater fun l hl hstep => by
        rcases hcalls l (by omega) hstep with rfl | rfl | hmem
        · omega
        · omega
        · exact hmem
    have hthis : Overtaken actions i id user offset n m := by
      refine h.overtaken hnm hfound hswap fun l hnl hlm hstep => ?_
      rcases hcalls l (by omega) hstep with rfl | rfl | hmem
      · omega
      · omega
      · have := hm l hmem
        omega
    refine ⟨(n, m) :: rounds, by simp [hlength], ?_, ?_, fun l hl hstep => ?_⟩
    · refine List.pairwise_cons.2 ⟨fun r hr => ?_, hordered⟩
      have := (hovertaken r hr).1
      exact this
    · refine List.forall_mem_cons.2 ⟨⟨hfirst.1, hthis⟩, fun r hr => ?_⟩
      obtain ⟨hr₁, hr⟩ := hovertaken r hr
      exact ⟨by omega, hr⟩
    · rcases hcalls l hl hstep with rfl | rfl | hmem
      · exact ⟨_, List.mem_cons_self, .inl rfl⟩
      · exact ⟨_, List.mem_cons_self, .inr rfl⟩
      · obtain ⟨r, hr, hlr⟩ := hcovers l (hm l hmem) hstep
        exact ⟨r, List.mem_cons_of_mem _ hr, hlr⟩

/-! ## Commits -/

/-- A store becomes another by setting the offset of a user's subscription: the clock that is
replaced is the one that the row `read` had, and `now` is the time. -/
structure SetsOffset (s t : Store) (id user offset : Int) (read : SubscriptionRow) (now : Instant)
    (a : Subscription) : Prop where
  replaces : s.HasClock id user read.updatedAt
  /-- Nothing else changes. -/
  store : t = s.editSubscription id fun r =>
    { r with storyOffset := offset, updatedAt := a.updatedAt.stamp }
  /-- The new clock is the time if that is later, else one microsecond past the clock replaced. -/
  advances : ∃ seen, Stamp.decode read.updatedAt = .ok seen ∧
    Instant.advance? seen now = some a.updatedAt ∧ seen < a.updatedAt
  later : Stamp.Before read.updatedAt a.updatedAt.stamp
  answer : a.id = id ∧ a.user = user ∧ a.storyOffset = offset

/-- A swap that is made is a commit, and it sets the offset. -/
theorem LeadsInYears.setsOffset (h : LeadsInYears actions x) {a : OffsetAttempt}
    (hfound : Gives actions n i (.called (.findSubscription id (some user)) (some a.row)))
    (hswapped : Gives actions m i (.called
      (.swapOffset id user offset a.found.updatedAt.stamp a.next.stamp) true)) :
    Commits actions m i ∧ ∃ s t, storeAt actions m = some s ∧ storeAt actions (m + 1) = some t ∧
      SetsOffset s t id user offset a.row.1 a.time.truncate
        { a.found with storyOffset := offset, updatedAt := a.next } := by
  have hload := SubscriptionRow.load_eq_ok.1 a.loads
  have hstamp := h.stamp_of_found a.loads hfound
  obtain ⟨-, -, -, -, hid, huser⟩ := h.mem_of_found hfound
  obtain ⟨y, hy, hstep, -, hanswer, hleft⟩ := hswapped.answers
  have hvalid := (h.reachable hy).sound.valid
  have hclock : y.store.HasClock id user a.found.updatedAt.stamp :=
    (Store.runSwapOffset_fst offset a.next.stamp).1 hanswer
  have hlater : Stamp.Before a.found.updatedAt.stamp a.next.stamp :=
    .of_advance? a.time.isWhole_truncate a.ticks
  replace hleft : storeAt actions (m + 1) = some (y.store.editSubscription id fun r =>
      { r with storyOffset := offset, updatedAt := a.next.stamp }) :=
    hleft.trans (congrArg some (hvalid.runSwapOffset_of_hasClock offset a.next.stamp hclock))
  have hs : storeAt actions m = some y.store := storeAt_eq_some.2 ⟨y, hy, rfl⟩
  refine ⟨⟨hstep, fun hsame => ?_⟩, y.store, _, hs, hleft, hstamp ▸ hclock, rfl,
    ⟨_, hload.updatedAt, a.ticks, Instant.lt_of_advance? a.ticks⟩, hstamp ▸ hlater,
    hload.id.trans hid, hload.user.trans huser, rfl⟩
  rw [hleft, hs, Option.some.injEq] at hsame
  exact hvalid.editSubscription_ne hclock (fun heq => (heq ▸ hlater).irrefl) hsame

/-- No other call than those of the request at a place moves the clock of the subscription or takes
it away, from the step on that starts the request, at which the user has the subscription. -/
def Uncontended (actions : List Action) (i : Nat) (id user offset : Int) : Prop :=
  ∃ n y, stateAt actions n = some y ∧ actions[n]? = some (.start (.setOffset id user offset)) ∧
    y.running.length = i ∧ (∃ r ∈ y.store.subscriptions, r.id = id ∧ r.user = user) ∧
    ∀ k j, n < k → j ≠ i → actions[k]? = some (.call j) → ¬ Moves actions k id

/-- The clock that is there when an uncontended request starts is there until it commits. -/
theorem LeadsInYears.clock_of_uncontended (h : LeadsInYears actions x)
    (hu : Uncontended actions i id user offset) : ∃ stamp, ∀ m z, stateAt actions m = some z →
      (z.running[i]?).isSome → (∀ k < m, ¬ Commits actions k i) →
      z.store.HasClock id user stamp := by
  obtain ⟨n, y, hy, hstart, hplace, ⟨r, hr, hid, huser⟩, hothers⟩ := hu
  refine ⟨r.updatedAt, fun m z hz hunderway hnone => ?_⟩
  have hnm : n < m := by
    by_contra hle
    obtain ⟨⟨request, past, rest⟩, hi⟩ := Option.isSome_iff_exists.1 hunderway
    obtain ⟨_, _, hlater⟩ := running_stateAt (not_lt.1 hle) hz hy hi
    have := (List.getElem?_eq_some_iff.1 hlater).1
    omega
  by_contra hgone
  obtain ⟨k, j, hnk, hkm, hstep, hmoves⟩ :=
    h.exists_moves hnm.le (storeAt_eq_some.2 ⟨y, hy, rfl⟩) ⟨r, hr, hid, huser, rfl⟩
      (storeAt_eq_some.2 ⟨z, hz, rfl⟩) hgone
  have hne : n ≠ k := by
    rintro rfl
    rw [hstart] at hstep
    cases hstep
  by_cases hji : j = i
  · exact hnone k hkm (hji ▸ hmoves.commits hstep)
  · exact hothers k j (by omega) hji hstep hmoves

section Uncontended

variable {steps : List Nat} {more : List Event}

/-- An uncontended request finds the subscription. -/
theorem LeadsInYears.found_of_uncontended (h : LeadsInYears actions x)
    (hu : Uncontended actions i id user offset) (hsorted : steps.Pairwise (· < ·))
    (hall : ∀ n, actions[n]? = some (.call i) → n ∈ steps)
    {answer : Option (SubscriptionRow × Option FeedRow)}
    (hgives : List.Forall₂ (fun n e => Gives actions n i e) steps
      (.called (.findSubscription id (some user)) answer :: more)) : answer ≠ none := by
  obtain ⟨stamp, hclock⟩ := h.clock_of_uncontended hu
  cases hgives with
  | @cons n _ later _ hfound _ =>
    obtain ⟨y, hy, -, hunderway, hrow, -⟩ := hfound.answers
    have hnone : ∀ k < n, ¬ Commits actions k i := by
      intro k hk hcommits
      rcases List.mem_cons.1 (hall k hcommits.1) with rfl | hmem
      · omega
      · have := (List.pairwise_cons.1 hsorted).1 k hmem
        omega
    obtain ⟨r, hr, rfl, rfl, -⟩ := hclock n y hy hunderway hnone
    have hthere := (h.reachable hy).sound.valid.subscription?_eq_some.2 ⟨hr, rfl⟩
    rw [← hrow]
    simp [Call.run, Store.runFindSubscription_eq hthere]

/-- The first attempt of an uncontended request does not miss. -/
theorem LeadsInYears.swapped_of_uncontended (h : LeadsInYears actions x)
    (hu : Uncontended actions i id user offset) (hsorted : steps.Pairwise (· < ·))
    (hall : ∀ n, actions[n]? = some (.call i) → n ∈ steps) {a : OffsetAttempt} {swapped : Bool}
    (hgives : List.Forall₂ (fun n e => Gives actions n i e) steps
      (a.events id user offset swapped ++ more)) : swapped = true := by
  obtain ⟨stamp, hclock⟩ := h.clock_of_uncontended hu
  obtain ⟨n, k, m, later, rfl, hfound, hread, hswap, -⟩ := steps_of_attempt hgives
  simp only [List.pairwise_cons, List.mem_cons, forall_eq_or_imp] at hsorted
  obtain ⟨⟨hnk, hnm, hn⟩, ⟨hkm, hk⟩, hm, -⟩ := hsorted
  have hnone : ∀ l < m, ¬ Commits actions l i := by
    intro l hl hcommits
    have hmem := hall l hcommits.1
    simp only [List.mem_cons] at hmem
    rcases hmem with rfl | rfl | rfl | hmem
    · exact hfound.not_commits (isQuiet_find _) hcommits
    · exact hread.not_commits True.intro hcommits
    · omega
    · have := hm l hmem
      omega
  obtain ⟨y, hy, -, hunderway, hrow, -⟩ := hfound.answers
  obtain ⟨z, hz, -, hunderway', hanswer, -⟩ := hswap.answers
  obtain ⟨r, hr, hid, -, rfl⟩ := hclock n y hy hunderway fun l hl => hnone l (hl.trans hnm)
  obtain ⟨r', hr', hid', hr''⟩ := Store.exists_of_runFindSubscription hrow
  obtain rfl := (h.reachable hy).sound.valid.eq_of_id hr' hr (hid'.trans hid.symm)
  have hstamp : a.found.updatedAt.stamp = r'.updatedAt :=
    (h.stamp_of_found a.loads hfound).trans (congrArg (·.1.updatedAt) hr''.symm)
  rw [← hanswer]
  refine (Store.runSwapOffset_fst offset a.next.stamp).2 ?_
  rw [hstamp]
  exact hclock m z hz hunderway' hnone

end Uncontended

/-- In the years 0 to 9999 the clock of what is found has a next value. -/
theorem LeadsInYears.ticks_of_found (h : LeadsInYears actions x)
    (hload : SubscriptionRow.load false row = .ok found)
    (hfound : Gives actions n i (.called (.findSubscription id (some user)) (some row)))
    (now : Instant) : Instant.advance? found.updatedAt now ≠ none := by
  obtain ⟨s, -, hvalid, hmem, -, -⟩ := h.mem_of_found hfound
  obtain ⟨next, hnext⟩ := Stamp.exists_advance? (hvalid.written_updatedAt hmem)
    (SubscriptionRow.load_eq_ok.1 hload).updatedAt now
  rw [hnext]
  simp

section Ends

variable {steps : List Nat} {missed : List OffsetAttempt} {tail : List Event}
  {rest : Program (Except StoreError Reply)}

/-- A request that has swapped has committed once. -/
theorem LeadsInYears.commits_of_swapped (h : LeadsInYears actions x) {a : OffsetAttempt}
    (hgives : List.Forall₂ (fun n e => Gives actions n i e) steps
      (missed.flatMap (OffsetAttempt.events id user offset false) ++ a.events id user offset true))
    (hall : ∀ n, actions[n]? = some (.call i) → n ∈ steps) :
    ∃ m s t, (∀ n, Commits actions n i → n = m) ∧ Commits actions m i ∧
      storeAt actions m = some s ∧ storeAt actions (m + 1) = some t ∧
      a.found.updatedAt.stamp = a.row.1.updatedAt ∧
      SetsOffset s t id user offset a.row.1 a.time.truncate
        { a.found with storyOffset := offset, updatedAt := a.next } := by
  obtain ⟨n, -, hfound⟩ := forall₂_right hgives
    (List.mem_append_right _ (List.mem_cons_self : _ ∈ a.events id user offset true))
  have hsplit : missed.flatMap (OffsetAttempt.events id user offset false) ++
      a.events id user offset true = (missed.flatMap (OffsetAttempt.events id user offset false) ++
        [.called (.findSubscription id (some user)) (some a.row), .read a.time]) ++
          [.called (.swapOffset id user offset a.found.updatedAt.stamp a.next.stamp) true] := by
    simp [OffsetAttempt.events]
  rw [hsplit] at hgives
  obtain ⟨m, hswapped, honly⟩ := exists_last_step hgives hall fun e he => by
    rcases List.mem_append.1 he with he | he
    · exact isQuiet_of_mem_missed e he
    · simp only [List.mem_cons, List.not_mem_nil, or_false] at he
      rcases he with rfl | rfl
      · exact isQuiet_find _
      · exact True.intro
  obtain ⟨hcommits, s, t, hs, ht, hsets⟩ := h.setsOffset hfound hswapped
  exact ⟨m, s, t, honly, hcommits, hs, ht, h.stamp_of_found a.loads hfound, hsets⟩

/-- A request that has not answered has not committed. -/
theorem not_commits_of_stands (hstands : OffsetStands id user offset missed tail rest)
    (hgives : List.Forall₂ (fun n e => Gives actions n i e) steps
      (missed.flatMap (OffsetAttempt.events id user offset false) ++ tail))
    (hall : ∀ n, actions[n]? = some (.call i) → n ∈ steps)
    (hrest : ∀ reply, rest ≠ .done (.ok reply)) (n : Nat) : ¬ Commits actions n i :=
  not_commits_of_quiet hgives hall (fun e he => (List.mem_append.1 he).elim
    (isQuiet_of_mem_missed e) (hstands.isQuiet hrest e)) n

/-- An uncontended request is in its first attempt, which does not fail. -/
theorem LeadsInYears.stands_of_uncontended (h : LeadsInYears actions x)
    (hu : Uncontended actions i id user offset) (hsorted : steps.Pairwise (· < ·))
    (hall : ∀ n, actions[n]? = some (.call i) → n ∈ steps)
    (hgives : List.Forall₂ (fun n e => Gives actions n i e) steps tail)
    (hstands : OffsetStands id user offset [] tail rest) :
    tail.length < 3 ∧ ((∃ c next, rest = .call c next) ∨ ∃ next, rest = .clock next) ∨
      tail.length = 3 ∧ ∃ a, rest = .done (.ok (.subscription a)) := by
  cases hstands with
  | @ready attempts hleft =>
    cases attempts with
    | zero => cases hleft
    | succ attempts =>
      rw [Store.settingOffset_succ]
      exact .inl ⟨by simp, .inl ⟨_, _, rfl⟩⟩
  | missing => exact absurd rfl (h.found_of_uncontended hu hsorted hall hgives)
  | unreadable hload =>
    obtain ⟨n, -, hfound⟩ := forall₂_right hgives List.mem_cons_self
    obtain ⟨found, hfound⟩ := h.loads hfound
    rw [hload] at hfound
    cases hfound
  | found => exact .inl ⟨by simp, .inr ⟨_, rfl⟩⟩
  | overflowing hload hticks =>
    obtain ⟨n, -, hfound⟩ := forall₂_right hgives List.mem_cons_self
    exact absurd hticks (h.ticks_of_found hload hfound _)
  | ticked => exact .inl ⟨by simp, .inl ⟨_, _, rfl⟩⟩
  | swapped a => exact .inr ⟨rfl, _, rfl⟩

end Ends

/-- **Offsets are set once**, whatever runs beside. A request to set an offset changes the store at
most once. One that answers has done so, with its own offset and the clock that it answers with,
which replaces the clock that it had read and is later. One that fails has not: the subscription is
missing, or each of five attempts has been overtaken. One that nobody else contends with takes three
steps, and answers. -/
theorem offset_set_once (h : LeadsInYears actions x) {past : List Event}
    {rest : Program (Except StoreError Reply)}
    (hi : x.running[i]? = some ⟨.setOffset id user offset, past, rest⟩) :
    (∀ n m, Commits actions n i → Commits actions m i → n = m) ∧
    (∀ reply, rest = .done (.ok reply) → ∃ n s t earlier row time a, reply = .subscription a ∧
      Commits actions n i ∧ storeAt actions n = some s ∧ storeAt actions (n + 1) = some t ∧
      past = earlier ++ [.called (.findSubscription id (some user)) (some row), .read time,
        .called (.swapOffset id user offset row.1.updatedAt a.updatedAt.stamp) true] ∧
      SetsOffset s t id user offset row.1 time.truncate a) ∧
    (∀ e, rest = .done (.error e) → (∀ n, ¬ Commits actions n i) ∧
      (e = .subscriptionNotFound id ∨ e = .contended id ∧ ∃ rounds : List (Nat × Nat),
        rounds.length = Store.offsetAttempts ∧ rounds.Pairwise (fun r r' => r.2 < r'.1) ∧
        (∀ r ∈ rounds, Overtaken actions i id user offset r.1 r.2) ∧
        ∀ n, actions[n]? = some (.call i) → ∃ r ∈ rounds, n = r.1 ∨ n = r.2)) ∧
    (Uncontended actions i id user offset → past.length ≤ 3 ∧
      (past.length = 3 → ∃ a, rest = .done (.ok (.subscription a))) ∧
      (past.length < 3 →
        (∃ y, x.act (.call i) = some y) ∨ ∀ t, ∃ y, x.act (.read i t) = some y)) := by
  have hsound := Reachable.sound (runs_of_play h.proper h.leads)
  obtain ⟨missed, tail, rfl, hstands⟩ :=
    offsetStands_of_leads (hsound.running _ (List.mem_of_getElem? hi)).leads
  obtain ⟨steps, hsorted, hgives, hall⟩ := steps_of_play h.leads hi
  have hnone := not_commits_of_stands hstands hgives hall
  refine ⟨fun n m hn hm => ?_, ?_, ?_, ?_⟩
  · by_cases hok : ∃ reply, rest = .done (.ok reply)
    · obtain ⟨reply, hreply⟩ := hok
      obtain ⟨a, rfl, -⟩ := hstands.swapped_of_ok hreply
      obtain ⟨l, -, -, honly, -⟩ := h.commits_of_swapped hgives hall
      rw [honly n hn, honly m hm]
    · exact absurd hn (hnone (fun reply hreply => hok ⟨reply, hreply⟩) n)
  · rintro reply hreply
    obtain ⟨a, rfl, rfl⟩ := hstands.swapped_of_ok hreply
    obtain ⟨n, s, t, -, hcommits, hs, ht, hstamp, hsets⟩ := h.commits_of_swapped hgives hall
    exact ⟨n, s, t, _, a.row, a.time, _, rfl, hcommits, hs, ht, by rw [← hstamp]; rfl, hsets⟩
  · rintro e rfl
    refine ⟨hnone (by simp), ?_⟩
    rcases hstands.cases_of_error rfl with ⟨rfl, rfl, hlength⟩ | rfl | ⟨row, more, rfl, hfails⟩
    · rw [List.append_nil] at hgives
      obtain ⟨rounds, hrounds, hordered, hovertaken, hcovers⟩ :=
        h.rounds hsorted (fun n _ => Nat.zero_le n) hgives fun n _ => hall n
      exact .inr ⟨rfl, rounds, hrounds.trans hlength, hordered, fun r hr => (hovertaken r hr).2,
        fun n => hcovers n (Nat.zero_le n)⟩
    · exact .inl rfl
    · obtain ⟨n, -, hfound⟩ := forall₂_right hgives (List.mem_append_right _ List.mem_cons_self)
      obtain ⟨found, hload⟩ := h.loads hfound
      obtain ⟨t, hticks⟩ := hfails found hload
      exact absurd hticks (h.ticks_of_found hload hfound _)
  · intro hu
    cases missed with
    | cons a missed =>
      rw [List.flatMap_cons, List.append_assoc] at hgives
      exact absurd (h.swapped_of_uncontended hu hsorted hall hgives) (by decide)
    | nil =>
      rw [List.flatMap_nil, List.nil_append] at hgives ⊢
      rcases h.stands_of_uncontended hu hsorted hall hgives hstands with
        ⟨hlength, ⟨c, next, rfl⟩ | ⟨next, rfl⟩⟩ | ⟨hlength, hanswers⟩
      · exact ⟨by omega, by omega, fun _ => .inl ⟨_, act_eq_some.2 (.call hi)⟩⟩
      · exact ⟨by omega, by omega, fun _ => .inr fun t => ⟨_, act_eq_some.2 (.read t hi)⟩⟩
      · exact ⟨by omega, fun _ => hanswers, by omega⟩

/-- How a request to set an offset has ended, with what it asked for. -/
def offsetEnd? (x : System) (i : Nat) : Option ((Int × Int × Int) × Except StoreError Reply) :=
  match x.running[i]? with
  | some ⟨.setOffset id user offset, _, .done result⟩ => some ((id, user, offset), result)
  | _ => none

theorem offsetEnd?_eq_some {result : Except StoreError Reply}
    (h : x.offsetEnd? i = some ((id, user, offset), result)) :
    ∃ past, x.running[i]? = some ⟨.setOffset id user offset, past, .done result⟩ := by
  unfold offsetEnd? at h
  split at h
  · next hi =>
    cases h
    exact ⟨_, hi⟩
  · cases h

/-- A user subscribes to an address and sets the offset, at the epoch. -/
def settingAlone : List Action :=
  [.start (.subscribe "http://a.com/" 1), .call 0, .read 0 .epoch, .call 0, .call 0,
    .start (.setOffset 1 1 5), .call 1, .read 1 .epoch, .call 1]

/-- The same, but whenever the offset is about to be set another request sets it. -/
def settingOvertaken : List Action :=
  settingAlone.take 6 ++ [2, 3, 4, 5, 6].flatMap fun i : Nat =>
    [.call 1, .start (.setOffset 1 1 i), .call i, .read i .epoch, .call i, .read 1 .epoch, .call 1]

theorem uncontended_settingAlone : Uncontended settingAlone 1 1 1 5 := by
  have hthere : (stateAt settingAlone 5).map (fun y => (y.running.length,
      y.store.subscriptions.map fun r => (r.id, r.user))) = some (1, [(1, 1)]) := by decide +kernel
  obtain ⟨y, hy, hends⟩ := Option.map_eq_some_iff.1 hthere
  obtain ⟨hlength, hrows⟩ := Prod.mk.inj hends
  have howned : (1, 1) ∈ y.store.subscriptions.map fun r => (r.id, r.user) := by simp [hrows]
  obtain ⟨r, hr, hids⟩ := List.mem_map.1 howned
  obtain ⟨hid, huser⟩ := Prod.mk.inj hids
  refine ⟨5, y, hy, rfl, hlength, ⟨r, hr, hid, huser⟩, fun k j hk hj hstep => ?_⟩
  have hmem : Action.call j ∈ settingAlone.drop 6 := by
    refine List.mem_iff_getElem?.2 ⟨k - 6, ?_⟩
    rwa [List.getElem?_drop, Nat.add_sub_cancel' hk]
  simp only [settingAlone, List.drop_succ_cons, List.drop_zero, List.mem_cons,
    List.not_mem_nil, reduceCtorEq, Action.call.injEq, or_false, false_or] at hmem
  exact absurd (by tauto) hj

/-- A request that answers, and one that is overtaken in each attempt. -/
theorem offset_set_once_overtaken : ∃ x y : System, ∃ past past' a,
    LeadsInYears settingAlone x ∧
    x.running[1]? = some ⟨.setOffset 1 1 5, past, .done (.ok (.subscription a))⟩ ∧
    (∃ n s t row time, Commits settingAlone n 1 ∧ storeAt settingAlone n = some s ∧
      storeAt settingAlone (n + 1) = some t ∧ SetsOffset s t 1 1 5 row time a) ∧
    past.length = 3 ∧ Uncontended settingAlone 1 1 1 5 ∧
    LeadsInYears settingOvertaken y ∧
    y.running[1]? = some ⟨.setOffset 1 1 5, past', .done (.error (.contended 1))⟩ ∧
    (∀ n, ¬ Commits settingOvertaken n 1) ∧
    ∃ rounds : List (Nat × Nat), rounds.length = 5 ∧
      ∀ r ∈ rounds, Overtaken settingOvertaken 1 1 1 5 r.1 r.2 := by
  have hproper : ∀ a ∈ settingAlone, a.Proper := by
    simp [settingAlone, Action.Proper, Request.Proper]
  have hproper' : ∀ a ∈ settingOvertaken, a.Proper := by
    simp [settingOvertaken, settingAlone, Action.Proper, Request.Proper]
  have hplay : (initial.play settingAlone).map (fun x => (x.offsetEnd? 1).map fun e =>
      (e.1, e.2.toBool)) = some (some ((1, 1, 5), true)) := by
    decide +kernel
  have hplay' : (initial.play settingOvertaken).map (·.offsetEnd? 1) =
      some (some ((1, 1, 5), .error (.contended 1))) := by
    decide +kernel
  obtain ⟨x, hx, hend⟩ := Option.map_eq_some_iff.1 hplay
  obtain ⟨⟨asked, result⟩, hend, hok⟩ := Option.map_eq_some_iff.1 hend
  obtain ⟨rfl, hok⟩ := Prod.mk.inj hok
  obtain ⟨past, hi⟩ := offsetEnd?_eq_some hend
  obtain ⟨y, hy, hend'⟩ := Option.map_eq_some_iff.1 hplay'
  obtain ⟨past', hi'⟩ := offsetEnd?_eq_some hend'
  have hleads := leadsInYears_of_readable hproper hx (by decide +kernel)
  have hleads' := leadsInYears_of_readable hproper' hy (by decide +kernel)
  cases result with
  | error e => cases hok
  | ok reply =>
    obtain ⟨-, hanswers, -, hsucceeds⟩ := offset_set_once hleads hi
    obtain ⟨n, s, t, _, row, time, a, rfl, hcommits, hs, ht, -, hsets⟩ := hanswers reply rfl
    obtain ⟨hlength, -, hgoes⟩ := hsucceeds uncontended_settingAlone
    obtain ⟨-, -, hfails, -⟩ := offset_set_once hleads' hi'
    obtain ⟨hnone, herror⟩ := hfails _ rfl
    obtain ⟨-, rounds, hrounds, -, hovertaken, -⟩ := herror.resolve_left (by simp)
    refine ⟨x, y, past, past', a, hleads, hi, ⟨n, s, t, row.1, time.truncate, hcommits, hs, ht,
      hsets⟩, ?_, uncontended_settingAlone, hleads', hi', hnone, rounds, hrounds, hovertaken⟩
    by_contra hne
    rcases hgoes (by omega) with ⟨z, hz⟩ | hz
    · cases act_eq_some.1 hz with
      | call h => cases hi.symm.trans h
    · obtain ⟨z, hz⟩ := hz .epoch
      cases act_eq_some.1 hz with
      | read _ h => cases hi.symm.trans h

end System

end Syndication
