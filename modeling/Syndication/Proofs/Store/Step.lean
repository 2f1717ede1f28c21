import Syndication.Proofs.Store.Change
/-!
# What a call does to each table

A call either makes one transition of a feed (`Call.moved?`) or does nothing to the feeds that
there are, at most it adds one that is pending (`Call.feeds_run_of_moved`, `Call.feeds_run`). Of
the ids of subscriptions it keeps some and appends the next ones in order (`Call.ids_run`); only a
deletion takes one away (`Call.mem_ids_run`). Snapshots are only appended (`Call.snapshots_run`),
and so are mappings (`Call.mappings_run`).
-/

namespace Syndication

/-! ## Transitions that are not made -/

theorem exists_of_mapM_eq_error {ε α β : Type} {f : α → Except ε β} {l : List α} {e : ε}
    (h : l.mapM f = .error e) : ∃ a ∈ l, f a = .error e := by
  induction l with
  | nil => cases h
  | cons a l ih =>
    rw [List.mapM_cons] at h
    cases ha : f a with
    | error e' =>
      obtain rfl : e' = e := by simpa [ha, bind, Except.bind] using h
      exact ⟨a, List.mem_cons_self, ha⟩
    | ok b =>
      have hl : l.mapM f = .error e := by
        cases hrest : l.mapM f with
        | error e' => simpa [ha, hrest, bind, Except.bind] using h
        | ok bs => simp [ha, hrest, bind, Except.bind, pure, Except.pure] at h
      obtain ⟨x, hx, hxe⟩ := ih hl
      exact ⟨x, List.mem_cons_of_mem a hx, hxe⟩

/-- A subscription cannot follow its feed only because of its clock. -/
theorem SubscriptionRow.error_of_follow {feedId : Int} {status : Status} {now : Instant}
    {force : Bool} {r : SubscriptionRow} {e : StoreError}
    (h : r.follow feedId status now force = .error e) :
    (∃ fault, e = .badClock fault) ∨ e = .clockOverflow := by
  unfold SubscriptionRow.follow at h
  split at h
  · split at h
    · next fault _ => exact .inl ⟨fault, (Except.error.inj h).symm⟩
    · split at h
      · cases h
      · exact .inr (Except.error.inj h).symm
  · cases h

namespace Store

variable {s : Store} {id : Int} {t : Transition}

/-- A transition that is refused leaves the store, and its feed is in a status that does not admit
it. -/
theorem moveFeed_of_refused {name : String} (h : (s.moveFeed id t).1 = .refused name) :
    (s.moveFeed id t).2 = s ∧ ∃ row, s.feed? id = some row ∧ row.status = name ∧
      name ∉ t.target.predecessors.map Status.name := by
  unfold moveFeed at h ⊢
  cases hrow : s.feed? id with
  | none => simp [hrow] at h
  | some row =>
    simp only [hrow] at h ⊢
    split at h
    · split at h <;> cases h
    · next hstatus =>
      obtain rfl : row.status = name := Moved.refused.inj h
      exact ⟨by rw [if_neg hstatus], row, rfl, rfl, hstatus⟩

theorem error_of_followers {e : StoreError} (h : s.followers id t = .error e) :
    (∃ fault, e = .badClock fault) ∨ e = .clockOverflow := by
  cases t with
  | begin checkedAt => cases h
  | finish update changed updatedAt syncedAt now =>
    obtain ⟨r, -, hr⟩ := exists_of_mapM_eq_error h
    exact r.error_of_follow hr
  | fail now =>
    obtain ⟨r, -, hr⟩ := exists_of_mapM_eq_error h
    exact r.error_of_follow hr

/-- A transition fails because of the subscriptions that cannot follow. -/
theorem followers_of_failed {e : StoreError} (h : (s.moveFeed id t).1 = .failed e) :
    s.followers id t = .error e := by
  unfold moveFeed at h
  split at h
  · cases h
  · split at h
    · split at h
      · cases h
      · next hfollow => exact Moved.failed.inj h ▸ hfollow
    · cases h

/-- A transition fails only because of a subscription's clock. -/
theorem error_of_moveFeed {e : StoreError} (h : (s.moveFeed id t).1 = .failed e) :
    (∃ fault, e = .badClock fault) ∨ e = .clockOverflow :=
  error_of_followers (followers_of_failed h)

end Store

namespace Call

variable {s : Store} {c : Call}

/-! ## Feeds -/

/-- The transition of a feed that a call makes, if it makes one. -/
def moved? (s : Store) : Call → Option (Int × Transition)
  | .moveFeed id t => if (s.moveFeed id t).1 = .moved then some (id, t) else none
  | _ => none

theorem moved?_eq_some {id : Int} {t : Transition} :
    c.moved? s = some (id, t) ↔ c = .moveFeed id t ∧ (s.moveFeed id t).1 = .moved := by
  cases c with
  | moveFeed k u =>
    simp only [moved?, Option.ite_none_right_eq_some, Option.some.injEq, Prod.mk.injEq,
      moveFeed.injEq]
    constructor
    · rintro ⟨hmoved, rfl, rfl⟩
      exact ⟨⟨rfl, rfl⟩, hmoved⟩
    · rintro ⟨⟨rfl, rfl⟩, hmoved⟩
      exact ⟨hmoved, rfl, rfl⟩
  | _ => simp [moved?]

/-- A transition that is made has found its feed in a status that admits it. -/
theorem feeds_run_of_moved {id : Int} {t : Transition} (h : c.moved? s = some (id, t)) :
    (∃ row, s.feed? id = some row ∧ row.status ∈ t.target.predecessors.map Status.name) ∧
      (c.run s).2.feeds = (s.editFeed id (·.apply t)).feeds := by
  obtain ⟨rfl, hmoved⟩ := moved?_eq_some.1 h
  rcases s.moveFeed_cases id t with ⟨hstays, -⟩ | ⟨row, rows, hrow, hstatus, -, hleft⟩
  · exact absurd hmoved hstays
  · exact ⟨⟨row, hrow, hstatus⟩, congrArg (fun left => left.2.feeds) hleft⟩

theorem feeds_runBind (id feedId : Int) (status : Status) (stamp : String) (s : Store) :
    (runBind id feedId status stamp s).2.feeds = s.feeds := by
  rcases runBind_cases id feedId status stamp s with ⟨-, hleft⟩ | ⟨_, -, -, -, hleft⟩
  · exact congrArg Store.feeds hleft
  · exact congrArg (fun left => left.2.feeds) hleft

/-- A call that neither moves a feed nor asks for one leaves the feeds. -/
theorem feeds_run_of_ne (h : c.moved? s = none) (hc : ∀ url stamp, c ≠ .ensureFeed url stamp) :
    (c.run s).2.feeds = s.feeds := by
  cases c with
  | ensureFeed url stamp => exact absurd rfl (hc url stamp)
  | moveFeed id t =>
    rcases s.moveFeed_cases id t with ⟨-, hleft⟩ | ⟨row, rows, -, -, -, hleft⟩
    · exact congrArg Store.feeds hleft
    · simp [moved?, hleft] at h
  | addSnapshot d stamp =>
    simp only [run, runAddSnapshot]
    split <;> rfl
  | insertRow row stamp =>
    simp only [run, runInsertRow]
    split
    · next hleft => exact (Store.view_insertRow hleft).1
    · rfl
  | insertBatch rows size stamp => exact (Store.view_insertBatch rows size stamp s).1
  | bind id feedId status stamp => exact feeds_runBind id feedId status stamp s
  | _ => rfl

/-- The feeds that are there stay as they are unless one of them moves; new ones are pending. -/
theorem feeds_run (h : c.moved? s = none) : ∃ created, (c.run s).2.feeds = s.feeds ++ created ∧
    ∀ f ∈ created, f.status = Status.pending.name := by
  by_cases hc : ∃ url stamp, c = .ensureFeed url stamp
  · obtain ⟨url, stamp, rfl⟩ := hc
    simp only [run, runEnsureFeed]
    split
    · exact ⟨[], by simp, by simp⟩
    · exact ⟨[_], rfl, by simp [newFeed]⟩
  · exact ⟨[], by simpa using feeds_run_of_ne h fun url stamp heq => hc ⟨url, stamp, heq⟩, by simp⟩

end Call

/-! ## Ids of subscriptions -/

namespace Store

/-- The next `n` ids that a store gives to subscriptions. -/
def freshIds (s : Store) (n : Nat) : List Int :=
  (List.range n).map fun k : Nat => s.lastSubscriptionId + 1 + (k : Int)

theorem lt_of_mem_freshIds {s : Store} {n : Nat} {id : Int} (h : id ∈ s.freshIds n) :
    s.lastSubscriptionId < id := by
  obtain ⟨k, -, rfl⟩ := List.mem_map.1 h
  omega

theorem pairwise_freshIds (s : Store) (n : Nat) : (s.freshIds n).Pairwise (· < ·) := by
  refine List.pairwise_map.2 (List.pairwise_lt_range.imp fun h => ?_)
  omega

/-- A store has come of another by giving `n` ids. -/
def Inserts (n : Nat) (s t : Store) : Prop :=
  t.subscriptions.map (·.id) = s.subscriptions.map (·.id) ++ s.freshIds n ∧
    t.lastSubscriptionId = s.lastSubscriptionId + n

theorem Inserts.refl (s : Store) : Inserts 0 s s := by
  simp [Inserts, freshIds]

theorem Inserts.trans {m n : Nat} {s t u : Store} (hst : Inserts m s t) (htu : Inserts n t u) :
    Inserts (m + n) s u := by
  obtain ⟨hids, hlast⟩ := hst
  obtain ⟨hids', hlast'⟩ := htu
  refine ⟨?_, by rw [hlast', hlast]; push_cast; ring⟩
  have hfresh : t.freshIds n = (List.range n).map fun k : Nat =>
      s.lastSubscriptionId + 1 + ((m + k : Nat) : Int) := by
    refine List.map_congr_left fun k _ => ?_
    rw [hlast]
    push_cast
    ring
  rw [hids', hids, hfresh, List.append_assoc]
  simp only [freshIds, List.range_add, List.map_append, List.map_map]
  rfl

theorem inserts_insertRow {s t : Store} {row : Planned} {stamp : String} {o : Inserted}
    (h : insertRow stamp s row = some (o, t)) : ∃ n, Inserts n s t := by
  rcases insertRow_cases h with ⟨_, _, _, _, _, rfl⟩ | ⟨-, -, rfl⟩
  · exact ⟨0, .refl _⟩
  · exact ⟨1, by simp [addSubscription, freshIds], rfl⟩

theorem inserts_insertBatch (rows : List Planned) (size : Nat) (stamp : String) (s : Store) :
    ∃ n, Inserts n s (s.insertBatch rows size stamp).2 := by
  refine insertBatch_induction (P := fun s t => ∃ n, Inserts n s t) (fun s => ⟨0, .refl s⟩) ?_ rows
    size (fun _ _ _ _ _ => inserts_insertRow) s
  rintro s t u ⟨m, hst⟩ ⟨n, htu⟩
  exact ⟨m + n, hst.trans htu⟩

end Store

/-- A call that deletes nothing leaves the ids in use where they are and appends the next ones. -/
theorem Call.inserts_run (s : Store) {c : Call}
    (hc : ∀ id user, c ≠ .deleteSubscription id user) : ∃ n, s.Inserts n (c.run s).2 := by
  have kept {t : Store} (hids : t.subscriptions.map (·.id) = s.subscriptions.map (·.id))
      (hlast : t.lastSubscriptionId = s.lastSubscriptionId) : ∃ n, s.Inserts n t :=
    ⟨0, by simp [Store.freshIds, hids], by simp [hlast]⟩
  cases c with
  | ensureFeed url stamp =>
    refine kept (congrArg _ (Store.subscriptions_ensureFeed url stamp s)) ?_
    simp only [run, runEnsureFeed]
    split <;> rfl
  | moveFeed id t =>
    simp only [run]
    rcases s.moveFeed_cases id t with ⟨-, hleft⟩ | ⟨row, rows, -, -, hfollow, hleft⟩
    · rw [hleft]
      exact kept rfl rfl
    · rw [hleft]
      refine kept ?_ rfl
      rcases Store.followers_cases hfollow with ⟨-, rfl⟩ | ⟨-, now, -, hrows⟩
      · rfl
      · exact map_eq_of_forall₂ (hrows.imp fun r r' hr =>
          (r.follow_lives t.target_ne_pending hr).id.symm)
  | addSnapshot d stamp =>
    simp only [run, runAddSnapshot]
    split <;> exact kept rfl rfl
  | insertRow row stamp =>
    simp only [run, runInsertRow]
    split
    · next hleft => exact Store.inserts_insertRow hleft
    · exact kept rfl rfl
  | insertBatch rows size stamp => exact Store.inserts_insertBatch rows size stamp s
  | deleteSubscription id user => exact absurd rfl (hc id user)
  | swapOffset id user offset seen stamp =>
    refine kept ?_ rfl
    refine map_eq_of_forall₂ (f := fun r : SubscriptionRow => r.id)
      (List.forall₂_map_right_iff.2 (List.forall₂_same.2 fun r _ => ?_))
    split <;> rfl
  | bind id feedId status stamp =>
    simp only [run]
    rcases runBind_cases id feedId status stamp s with ⟨-, hleft⟩ | ⟨_, -, -, -, hleft⟩
    · rw [hleft]
      exact kept rfl rfl
    · rw [hleft]
      exact kept (map_key_edit (fun r : SubscriptionRow => r.id) id fun _ => rfl) rfl
  | _ => exact kept rfl rfl

/-- **Ids are given in order**: of the ids in use a call keeps some, and appends the next ones. -/
theorem Call.ids_run (s : Store) (c : Call) : ∃ kept n,
    (c.run s).2.subscriptions.map (·.id) = kept ++ s.freshIds n ∧
      kept.Sublist (s.subscriptions.map (·.id)) ∧
      (c.run s).2.lastSubscriptionId = s.lastSubscriptionId + n := by
  by_cases hc : ∃ id user, c = .deleteSubscription id user
  · obtain ⟨id, user, rfl⟩ := hc
    refine ⟨((run (.deleteSubscription id user) s).2.subscriptions.map (·.id)), 0, ?_,
      List.filter_sublist.map _, ?_⟩
    · simp [Store.freshIds]
    · simp [run, runDeleteSubscription]
  · obtain ⟨n, hids, hlast⟩ := inserts_run s fun id user heq => hc ⟨id, user, heq⟩
    exact ⟨_, n, hids, .refl _, hlast⟩

/-- **Only a deletion takes a subscription away.** -/
theorem Call.mem_ids_run {s : Store} (c : Call) {r : SubscriptionRow}
    (hr : r ∈ s.subscriptions) : r.id ∈ (c.run s).2.subscriptions.map (·.id) ∨
      c = .deleteSubscription r.id r.user := by
  by_cases hc : ∃ id user, c = .deleteSubscription id user
  · obtain ⟨id, user, rfl⟩ := hc
    by_cases howned : isOwned id user r = true
    · obtain ⟨rfl, rfl⟩ : r.id = id ∧ r.user = user := by simpa [isOwned] using howned
      exact .inr rfl
    · exact .inl (List.mem_map_of_mem (List.mem_filter.2 ⟨hr, by simpa using howned⟩))
  · obtain ⟨n, hids, -⟩ := inserts_run s fun id user heq => hc ⟨id, user, heq⟩
    rw [hids]
    exact .inl (List.mem_append_left _ (List.mem_map_of_mem hr))

/-! ## Snapshots and mappings -/

/-- Snapshots stay, and one that is new holds what its draft holds. -/
theorem Call.snapshots_run (s : Store) (c : Call) : ∃ added,
    (c.run s).2.snapshots = s.snapshots ++ added ∧ ∀ r ∈ added, ∃ d stamp,
      c = .addSnapshot d stamp ∧ r.headers = d.headers.encode ∧ r.createdAt = stamp := by
  have same (h : (c.run s).2.snapshots = s.snapshots) : ∃ added,
      (c.run s).2.snapshots = s.snapshots ++ added ∧ ∀ r ∈ added, ∃ d stamp,
        c = .addSnapshot d stamp ∧ r.headers = d.headers.encode ∧ r.createdAt = stamp :=
    ⟨[], by simpa using h, by simp⟩
  cases c with
  | ensureFeed url stamp =>
    refine same ?_
    simp only [run, runEnsureFeed]
    split <;> rfl
  | moveFeed id t =>
    refine same ?_
    rcases s.moveFeed_cases id t with ⟨-, hleft⟩ | ⟨row, rows, -, -, -, hleft⟩
    · exact congrArg Store.snapshots hleft
    · exact congrArg (fun left => left.2.snapshots) hleft
  | addSnapshot d stamp =>
    cases hfeed : s.feed? d.feedId with
    | none => exact same (by simp [run, runAddSnapshot, hfeed])
    | some row =>
      refine ⟨[_], by simp only [run, runAddSnapshot, hfeed]; rfl, fun r hr => ?_⟩
      obtain rfl := List.mem_singleton.1 hr
      exact ⟨d, stamp, rfl, rfl, rfl⟩
  | insertRow row stamp =>
    refine same ?_
    simp only [run, runInsertRow]
    split
    · next hleft =>
      rcases Store.insertRow_cases hleft with ⟨_, _, _, _, _, rfl⟩ | ⟨-, -, rfl⟩ <;> rfl
    · rfl
  | insertBatch rows size stamp =>
    refine same (Store.insertBatch_induction (P := fun s t => t.snapshots = s.snapshots)
      (fun _ => rfl) (fun _ _ _ hst htu => htu.trans hst) rows size ?_ s)
    intro _ _ s o t hleft
    rcases Store.insertRow_cases hleft with ⟨_, _, _, _, _, rfl⟩ | ⟨-, -, rfl⟩ <;> rfl
  | bind id feedId status stamp =>
    refine same ?_
    rcases runBind_cases id feedId status stamp s with ⟨-, hleft⟩ | ⟨_, -, -, -, hleft⟩
    · exact congrArg Store.snapshots hleft
    · exact congrArg (fun left => left.2.snapshots) hleft
  | _ => exact same rfl

/-- **Mappings stay**: only a call that records a mapping changes their log. -/
theorem Call.mappings_run (s : Store) {c : Call}
    (hc : ∀ source target stamp, c ≠ .addMapping source target stamp) :
    (c.run s).2.mappings = s.mappings := by
  cases c with
  | addMapping source target stamp => exact absurd rfl (hc source target stamp)
  | ensureFeed url stamp =>
    simp only [run, runEnsureFeed]
    split <;> rfl
  | moveFeed id t =>
    rcases s.moveFeed_cases id t with ⟨-, hleft⟩ | ⟨row, rows, -, -, -, hleft⟩
    · exact congrArg Store.mappings hleft
    · exact congrArg (fun left => left.2.mappings) hleft
  | addSnapshot d stamp =>
    simp only [run, runAddSnapshot]
    split <;> rfl
  | insertRow row stamp =>
    simp only [run, runInsertRow]
    split
    · next hleft =>
      rcases Store.insertRow_cases hleft with ⟨_, _, _, _, _, rfl⟩ | ⟨-, -, rfl⟩ <;> rfl
    · rfl
  | insertBatch rows size stamp =>
    refine Store.insertBatch_induction (P := fun s t => t.mappings = s.mappings)
      (fun _ => rfl) (fun _ _ _ hst htu => htu.trans hst) rows size ?_ s
    intro _ _ s o t hleft
    rcases Store.insertRow_cases hleft with ⟨_, _, _, _, _, rfl⟩ | ⟨-, -, rfl⟩ <;> rfl
  | bind id feedId status stamp =>
    rcases runBind_cases id feedId status stamp s with ⟨-, hleft⟩ | ⟨_, -, -, -, hleft⟩
    · exact congrArg Store.mappings hleft
    · exact congrArg (fun left => left.2.mappings) hleft
  | _ => rfl

end Syndication
