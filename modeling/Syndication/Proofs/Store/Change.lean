import Syndication.Proofs.Store.Valid
/-!
# What a call changes

A call never takes a feed away and never gives the id of a subscription again, and a subscription
that it leaves in place lives on: whose it is, its address and its feed, once it has one, stay, and
what was visible is so still (`Call.extends_run`). What a call may make of such a subscription is
told case by case (`Call.turnsInto_run`); only a binding gives it a feed (`Call.feedId_run`). And
clocks tell: a subscription that a call leaves in place either looks the same afterwards, down to
what describes its feed, or has a later clock; only the clock that a binding writes is not known to
be later than the one it replaces (`Call.view_run`).
-/

namespace Syndication

/-! ## What others see -/

/-- What describes a feed, apart from where it stands in its crawls. -/
structure FeedRow.Description where
  id : Int
  url : String
  profile : Feed.Profile
  createdAt : String
  updatedAt : String

/-- What describes a feed. -/
def FeedRow.description (r : FeedRow) : FeedRow.Description :=
  ⟨r.id, r.url, r.profile, r.createdAt, r.updatedAt⟩

/-- A subscription with what describes its feed. -/
def Store.view (s : Store) (r : SubscriptionRow) : SubscriptionRow × Option FeedRow.Description :=
  (r, (r.feedId.bind s.feed?).map (·.description))

/-- A subscription that was visible to everyone is so still. -/
def SubscriptionRow.StaysShown (r r' : SubscriptionRow) : Prop :=
  r.status ≠ Status.pending.name → r'.status ≠ Status.pending.name

/-- A subscription at a later time: whose it is, its address, its title and when it was created
stay, and so does its feed once it is bound. -/
structure SubscriptionRow.Lives (r r' : SubscriptionRow) : Prop where
  id : r.id = r'.id
  user : r.user = r'.user
  url : r.url = r'.url
  title : r.title = r'.title
  createdAt : r.createdAt = r'.createdAt
  feedId : ∀ f, r.feedId = some f → r'.feedId = some f
  shown : r.StaysShown r'

namespace SubscriptionRow.Lives

theorem refl (r : SubscriptionRow) : r.Lives r :=
  ⟨rfl, rfl, rfl, rfl, rfl, fun _ h => h, fun h => h⟩

theorem trans {r r' r'' : SubscriptionRow} (h : r.Lives r') (h' : r'.Lives r'') : r.Lives r'' where
  id := h.id.trans h'.id
  user := h.user.trans h'.user
  url := h.url.trans h'.url
  title := h.title.trans h'.title
  createdAt := h.createdAt.trans h'.createdAt
  feedId f hf := h'.feedId f (h.feedId f hf)
  shown hr := h'.shown (h.shown hr)

end SubscriptionRow.Lives

namespace Store

/-- Feeds stay, ids of subscriptions are not given again, and subscriptions live on. -/
structure Extends (s s' : Store) : Prop where
  feeds : ∀ f ∈ s.feeds, ∃ f' ∈ s'.feeds, f'.id = f.id ∧ f'.url = f.url ∧ f'.createdAt = f.createdAt
  lastId_le : s.lastSubscriptionId ≤ s'.lastSubscriptionId
  subscriptions : ∀ r' ∈ s'.subscriptions, s.lastSubscriptionId < r'.id ∨
    ∃ r ∈ s.subscriptions, r.Lives r'

namespace Extends

theorem refl (s : Store) : s.Extends s where
  feeds f hf := ⟨f, hf, rfl, rfl, rfl⟩
  lastId_le := Int.le_refl _
  subscriptions r hr := .inr ⟨r, hr, .refl r⟩

theorem trans {s t u : Store} (hst : s.Extends t) (htu : t.Extends u) : s.Extends u where
  feeds f hf := by
    obtain ⟨f', hf', hid, hurl, hcreated⟩ := hst.feeds f hf
    obtain ⟨f'', hf'', hid', hurl', hcreated'⟩ := htu.feeds f' hf'
    exact ⟨f'', hf'', hid'.trans hid, hurl'.trans hurl, hcreated'.trans hcreated⟩
  lastId_le := Int.le_trans hst.lastId_le htu.lastId_le
  subscriptions r'' hr'' := by
    rcases htu.subscriptions r'' hr'' with hnew | ⟨r', hr', hlives'⟩
    · have := hst.lastId_le
      exact .inl (by omega)
    · rcases hst.subscriptions r' hr' with hnew | ⟨r, hr, hlives⟩
      · exact .inl (hlives'.id ▸ hnew)
      · exact .inr ⟨r, hr, hlives.trans hlives'⟩

/-- Subscriptions that have been changed in their places. -/
theorem of_forall₂ {s s' : Store} (hfeeds : ∀ f ∈ s.feeds, ∃ f' ∈ s'.feeds, f'.id = f.id ∧
    f'.url = f.url ∧ f'.createdAt = f.createdAt)
    (hlast : s'.lastSubscriptionId = s.lastSubscriptionId)
    (hrows : List.Forall₂ SubscriptionRow.Lives s.subscriptions s'.subscriptions) :
    s.Extends s' where
  feeds := hfeeds
  lastId_le := hlast ▸ Int.le_refl _
  subscriptions _ hr' := .inr (forall₂_right hrows hr')

/-- A feed that was there is there. -/
theorem feed {s s' : Store} (h : s.Extends s') {id : Int} (hid : ∃ f ∈ s.feeds, f.id = id) :
    ∃ f ∈ s'.feeds, f.id = id := by
  obtain ⟨f, hf, rfl⟩ := hid
  obtain ⟨f', hf', hid', -⟩ := h.feeds f hf
  exact ⟨f', hf', hid'⟩

/-- A subscription that is there under an id given earlier was there. -/
theorem subscription {s s' : Store} (h : s.Extends s') {r' : SubscriptionRow}
    (hr' : r' ∈ s'.subscriptions) (hid : r'.id ≤ s.lastSubscriptionId) :
    ∃ r ∈ s.subscriptions, r.Lives r' :=
  (h.subscriptions r' hr').resolve_left (by omega)

/-- A subscription that is there still is the one that was there under its id. -/
theorem lives {s s' : Store} (h : s.Extends s') (hs : s.Valid) {r r' : SubscriptionRow}
    (hr : r ∈ s.subscriptions) (hr' : r' ∈ s'.subscriptions) (hid : r'.id = r.id) : r.Lives r' := by
  obtain ⟨r₀, hr₀, hlives⟩ := h.subscription hr' (hid ▸ hs.id_le r hr)
  obtain rfl := hs.eq_of_id hr₀ hr (hlives.id.trans hid)
  exact hlives

end Extends

/-! ## Feeds after a change -/

theorem feed?_editFeed (s : Store) (id k : Int) {edit : FeedRow → FeedRow}
    (hedit : ∀ f, (edit f).id = f.id) :
    (s.editFeed id edit).feed? k = (s.feed? k).map fun f => if f.id = id then edit f else f :=
  find?_key_edit (fun f : FeedRow => f.id) id k hedit

theorem feed?_ensureFeed {s : Store} (url stamp : String) {k : Int} {f : FeedRow}
    (h : s.feed? k = some f) : (Call.runEnsureFeed url stamp s).2.feed? k = some f := by
  unfold Call.runEnsureFeed
  split
  · exact h
  · unfold feed? at h ⊢
    rw [List.find?_append, h, Option.some_or]

theorem subscriptions_ensureFeed (url stamp : String) (s : Store) :
    (Call.runEnsureFeed url stamp s).2.subscriptions = s.subscriptions := by
  unfold Call.runEnsureFeed
  split <;> rfl

theorem mem_feeds_ensureFeed (url stamp : String) (s : Store) :
    (Call.runEnsureFeed url stamp s).1 ∈ (Call.runEnsureFeed url stamp s).2.feeds := by
  unfold Call.runEnsureFeed
  split
  · next found hfound => exact (mem_of_feedAt? hfound).1
  · exact List.mem_append_right _ List.mem_cons_self

theorem url_ensureFeed (url stamp : String) (s : Store) :
    (Call.runEnsureFeed url stamp s).1.url = url := by
  unfold Call.runEnsureFeed
  split
  · next found hfound => exact (mem_of_feedAt? hfound).2
  · rfl

end Store

theorem Transition.target_ne_pending (t : Transition) : t.target ≠ .pending := by
  cases t <;> simp [target]

namespace FeedRow

@[simp] theorem id_apply (f : FeedRow) (t : Transition) : (f.apply t).id = f.id := by
  fun_cases f.apply t <;> rfl

@[simp] theorem url_apply (f : FeedRow) (t : Transition) : (f.apply t).url = f.url := by
  fun_cases f.apply t <;> rfl

@[simp] theorem createdAt_apply (f : FeedRow) (t : Transition) :
    (f.apply t).createdAt = f.createdAt := by
  fun_cases f.apply t <;> rfl

theorem status_apply (f : FeedRow) (t : Transition) : (f.apply t).status = t.target.name := by
  fun_cases f.apply t <;> rfl

theorem description_apply (f : FeedRow) {t : Transition} (h : t.rewrites = false) :
    (f.apply t).description = f.description := by
  fun_cases f.apply t
  · rfl
  · cases h
  · rfl
  · rfl

end FeedRow

namespace Store

theorem feeds_apply (s : Store) (id : Int) (t : Transition) : ∀ f ∈ s.feeds,
    ∃ f' ∈ (s.editFeed id (·.apply t)).feeds, f'.id = f.id ∧ f'.url = f.url ∧
      f'.createdAt = f.createdAt := by
  intro f hf
  refine ⟨_, List.mem_map.2 ⟨f, hf, rfl⟩, ?_⟩
  split
  · simp
  · exact ⟨rfl, rfl, rfl⟩

/-- What a look-up of a bound subscription's feed sees of a transition. -/
theorem view_apply {s : Store} {id : Int} {t : Transition} {rows : List SubscriptionRow}
    {r : SubscriptionRow} (h : t.rewrites = true → r.feedId ≠ some id) :
    { s.editFeed id (·.apply t) with subscriptions := rows }.view r = s.view r := by
  have hfeed (k : Int) (hk : r.feedId = some k) :
      ((s.editFeed id (·.apply t)).feed? k).map (·.description) =
        (s.feed? k).map (·.description) := by
    rw [feed?_editFeed s id k fun f => f.id_apply t, Option.map_map]
    cases hf : s.feed? k with
    | none => rfl
    | some f =>
      obtain ⟨-, rfl⟩ := mem_of_feed? hf
      simp only [Option.map_some, Function.comp, Option.some.injEq]
      split
      · next hid =>
        exact f.description_apply (by simpa [hk, hid] using h)
      · rfl
  unfold view
  cases hr : r.feedId with
  | none => rfl
  | some k => exact Prod.ext rfl (hfeed k hr)

end Store

/-! ## Extending -/

/-- What a row becomes that follows its feed. -/
theorem SubscriptionRow.follow_lives {feedId : Int} {status : Status} {now : Instant}
    {force : Bool} {r r' : SubscriptionRow} (hstatus : status ≠ .pending)
    (h : r.follow feedId status now force = .ok r') :
    r.Lives r' := by
  rcases follow_cases h with ⟨rfl, -⟩ | ⟨-, _, _, -, -, rfl⟩
  · exact .refl _
  · refine ⟨rfl, rfl, rfl, rfl, rfl, fun _ h => h, fun _ => ?_⟩
    cases status with
    | pending => exact absurd rfl hstatus
    | _ => simp [Status.name]

namespace Store

theorem extends_moveFeed (s : Store) (id : Int) (t : Transition) :
    s.Extends (s.moveFeed id t).2 := by
  rcases moveFeed_cases s id t with ⟨-, hs⟩ | ⟨row, rows, -, -, hfollow, hs⟩
  · rw [hs]
    exact .refl s
  · rw [hs]
    refine .of_forall₂ (s.feeds_apply id t) rfl ?_
    rcases followers_cases hfollow with ⟨-, rfl⟩ | ⟨-, now, -, hrows⟩
    · exact List.forall₂_same.2 fun r _ => .refl r
    · exact hrows.imp fun r r' hr => r.follow_lives t.target_ne_pending hr

theorem extends_addSubscription (s : Store) (row : Planned) (stamp : String) :
    s.Extends (s.addSubscription row stamp) where
  feeds f hf := ⟨f, hf, rfl, rfl, rfl⟩
  lastId_le := by
    change _ ≤ s.lastSubscriptionId + 1
    omega
  subscriptions r' hr' := by
    rcases List.mem_append.1 hr' with hr' | hr'
    · exact .inr ⟨r', hr', .refl r'⟩
    · obtain rfl := List.mem_singleton.1 hr'
      exact .inl (by simp only; omega)

theorem extends_insertRow {s t : Store} {row : Planned} {stamp : String} {o : Inserted}
    (h : insertRow stamp s row = some (o, t)) : s.Extends t := by
  rcases insertRow_cases h with ⟨_, _, _, _, _, rfl⟩ | ⟨-, -, rfl⟩
  · exact .refl _
  · exact s.extends_addSubscription row stamp

end Store

/-- **Calls extend stores**: feeds stay, ids are not given again, subscriptions live on. -/
theorem Call.extends_run {s : Store} (h : s.Valid) (c : Call) : s.Extends (c.run s).2 := by
  cases c with
  | ensureFeed url stamp =>
    simp only [run, runEnsureFeed]
    split
    · exact .refl s
    · exact
        { feeds := fun f hf => ⟨f, List.mem_append_left _ hf, rfl, rfl, rfl⟩
          lastId_le := Int.le_refl _
          subscriptions := (Store.Extends.refl s).subscriptions }
  | moveFeed id t => exact s.extends_moveFeed id t
  | addSnapshot d stamp =>
    simp only [run, runAddSnapshot]
    split
    · exact .refl s
    · exact ⟨(Store.Extends.refl s).feeds, Int.le_refl _, (Store.Extends.refl s).subscriptions⟩
  | addMapping source target stamp =>
    exact ⟨(Store.Extends.refl s).feeds, Int.le_refl _, (Store.Extends.refl s).subscriptions⟩
  | insertRow row stamp =>
    simp only [run, runInsertRow]
    split
    · next ht => exact Store.extends_insertRow ht
    · exact .refl s
  | insertBatch rows size stamp =>
    exact Store.insertBatch_induction .refl (fun _ _ _ => .trans) rows size
      (fun _ _ _ _ _ => Store.extends_insertRow) s
  | deleteSubscription id user =>
    exact
      { feeds := (Store.Extends.refl s).feeds
        lastId_le := Int.le_refl _
        subscriptions := fun r hr =>
          (Store.Extends.refl s).subscriptions r (List.mem_of_mem_filter hr) }
  | swapOffset id user offset seen stamp =>
    refine .of_forall₂ (Store.Extends.refl s).feeds rfl
      (List.forall₂_map_right_iff.2 (List.forall₂_same.2 fun r _ => ?_))
    split <;> exact ⟨rfl, rfl, rfl, rfl, rfl, fun _ h => h, fun h => h⟩
  | bind id feedId status stamp =>
    rcases runBind_cases id feedId status stamp s with ⟨-, hs⟩ | ⟨r₀, hr₀, hunbound, -, hs⟩
    · simp only [run, hs]
      exact .refl s
    · simp only [run, hs]
      refine .of_forall₂ (Store.Extends.refl s).feeds rfl
        (List.forall₂_map_right_iff.2 (List.forall₂_same.2 fun r hr => ?_))
      obtain ⟨hmem₀, rfl⟩ := Store.mem_of_subscription? hr₀
      split
      · next hid =>
        -- what is not bound is pending, so nothing that was visible changes
        obtain rfl := h.eq_of_id hr hmem₀ hid
        refine ⟨rfl, rfl, rfl, rfl, rfl, fun f hf => ?_, fun hshown => ?_⟩
        · rw [hunbound] at hf
          cases hf
        · exact absurd (h.pending r hr hunbound) hshown
      · exact .refl r
  | _ => exact .refl s

/-! ## Clocks -/

/-- A subscription that follows its feed keeps its id and either stays as it is or moves its clock
on. -/
theorem SubscriptionRow.follow_before {feedId : Int} {status : Status} {now : Instant}
    {force : Bool} {r r' : SubscriptionRow} (hr : Stamp.IsWritten r.updatedAt) (hnow : now.IsWhole)
    (h : r.follow feedId status now force = .ok r') :
    r'.id = r.id ∧ ((r' = r ∧ (force = true → r.feedId ≠ some feedId)) ∨
      Stamp.Before r.updatedAt r'.updatedAt) := by
  rcases follow_cases h with ⟨rfl, hkept⟩ | ⟨-, previous, t, hprevious, ht, rfl⟩
  · refine ⟨rfl, .inl ⟨rfl, fun hforce hfeed => ?_⟩⟩
    rw [(hkept hfeed).1] at hforce
    cases hforce
  · refine ⟨rfl, .inr ?_⟩
    rw [← (Stamp.Holds.of_decode hr hprevious).2]
    exact .of_advance? hnow ht

namespace Store

variable {s : Store} {r r' : SubscriptionRow}

theorem view_moveFeed (h : s.Valid) (id : Int) {t : Transition} (ht : t.Proper)
    (hr : r ∈ s.subscriptions) (hr' : r' ∈ (s.moveFeed id t).2.subscriptions)
    (hid : r'.id = r.id) :
    (s.moveFeed id t).2.view r' = s.view r ∨ Stamp.Before r.updatedAt r'.updatedAt := by
  rcases moveFeed_cases s id t with ⟨-, hs⟩ | ⟨row, rows, -, -, hfollow, hs⟩
  · rw [hs] at hr' ⊢
    obtain rfl := h.eq_of_id hr' hr hid
    exact .inl rfl
  · rw [hs] at hr' ⊢
    rcases followers_cases hfollow with ⟨hkeeps, rfl⟩ | ⟨-, now, hnow, hrows⟩
    · obtain rfl := h.eq_of_id hr' hr hid
      have hquiet : t.rewrites = false := t.rewrites_of_target (by simp [hkeeps])
      exact .inl (view_apply fun hrewrites => by rw [hquiet] at hrewrites; cases hrewrites)
    · obtain ⟨r₀, hr₀, hfollowed⟩ := forall₂_right hrows hr'
      obtain ⟨hid₀, hcase⟩ := r₀.follow_before (h.written_updatedAt hr₀) (hnow ht) hfollowed
      obtain rfl := h.eq_of_id hr₀ hr (hid₀.symm.trans hid)
      refine hcase.imp_left ?_
      rintro ⟨rfl, hfeed⟩
      exact view_apply hfeed

theorem view_swapOffset (h : s.Valid) (id user offset : Int) {seen stamp : String}
    (hstamp : Stamp.Before seen stamp) (hr : r ∈ s.subscriptions)
    (hr' : r' ∈ (Call.runSwapOffset id user offset seen stamp s).2.subscriptions)
    (hid : r'.id = r.id) :
    (Call.runSwapOffset id user offset seen stamp s).2.view r' = s.view r ∨
      Stamp.Before r.updatedAt r'.updatedAt := by
  obtain ⟨r₀, hr₀, rfl⟩ := List.mem_map.1 hr'
  split at hid
  · next hmeets =>
    obtain rfl := h.eq_of_id hr₀ hr hid
    simp only [Bool.and_eq_true, decide_eq_true_eq] at hmeets
    rw [if_pos (by simpa using hmeets)]
    exact .inr (hmeets.2 ▸ hstamp)
  · next hmeets =>
    obtain rfl := h.eq_of_id hr₀ hr hid
    rw [if_neg hmeets]
    exact .inl rfl

theorem view_bind (h : s.Valid) (id feedId : Int) (status : Status) (stamp : String)
    (hr : r ∈ s.subscriptions) (hr' : r' ∈ (Call.runBind id feedId status stamp s).2.subscriptions)
    (hid : r'.id = r.id) :
    (Call.runBind id feedId status stamp s).2.view r' = s.view r ∨
      (r.id = id ∧ r.feedId = none ∧ s.holder? r.user feedId = none) ∧
        r' = r.boundTo feedId status stamp := by
  rcases Call.runBind_cases id feedId status stamp s with ⟨-, hs⟩ | ⟨r₀, hr₀, hunbound, hfree, hs⟩
  · rw [hs] at hr' ⊢
    obtain rfl := h.eq_of_id hr' hr hid
    exact .inl rfl
  · rw [hs] at hr' ⊢
    obtain ⟨hmem₀, rfl⟩ := mem_of_subscription? hr₀
    obtain ⟨r₁, hr₁, rfl⟩ := List.mem_map.1 hr'
    split at hid
    · next hid₀ =>
      obtain rfl := h.eq_of_id hr₁ hr hid
      obtain rfl := h.eq_of_id hr hmem₀ hid₀
      rw [if_pos rfl]
      exact .inr ⟨⟨rfl, hunbound, hfree⟩, rfl⟩
    · next hid₀ =>
      obtain rfl := h.eq_of_id hr₁ hr hid
      rw [if_neg hid₀]
      exact .inl rfl

/-- What is inserted leaves the subscriptions that are there. -/
theorem view_insertRow {t : Store} {row : Planned} {stamp : String} {o : Inserted}
    (h : insertRow stamp s row = some (o, t)) :
    t.feeds = s.feeds ∧ s.lastSubscriptionId ≤ t.lastSubscriptionId ∧
      ∀ r' ∈ t.subscriptions, r' ∈ s.subscriptions ∨ s.lastSubscriptionId < r'.id := by
  rcases insertRow_cases h with ⟨_, _, _, _, _, rfl⟩ | ⟨-, -, rfl⟩
  · exact ⟨rfl, Int.le_refl _, fun _ => .inl⟩
  · refine ⟨rfl, (s.extends_addSubscription row stamp).lastId_le, fun r' hr' => ?_⟩
    rcases List.mem_append.1 hr' with hr' | hr'
    · exact .inl hr'
    · obtain rfl := List.mem_singleton.1 hr'
      exact .inr (by simp only; omega)

theorem view_insertBatch (rows : List Planned) (size : Nat) (stamp : String) (s : Store) :
    (s.insertBatch rows size stamp).2.feeds = s.feeds ∧
      s.lastSubscriptionId ≤ (s.insertBatch rows size stamp).2.lastSubscriptionId ∧
      ∀ r' ∈ (s.insertBatch rows size stamp).2.subscriptions,
        r' ∈ s.subscriptions ∨ s.lastSubscriptionId < r'.id := by
  refine insertBatch_induction (P := fun s t => t.feeds = s.feeds ∧
    s.lastSubscriptionId ≤ t.lastSubscriptionId ∧
      ∀ r' ∈ t.subscriptions, r' ∈ s.subscriptions ∨ s.lastSubscriptionId < r'.id)
    (fun s => ⟨rfl, Int.le_refl _, fun _ => .inl⟩) ?_ rows size
    (fun _ _ _ _ _ => view_insertRow) s
  rintro s t u ⟨hfeeds, hlast, hrows⟩ ⟨hfeeds', hlast', hrows'⟩
  refine ⟨hfeeds'.trans hfeeds, Int.le_trans hlast hlast', fun r' hr' => ?_⟩
  rcases hrows' r' hr' with hr' | hnew
  · exact hrows r' hr'
  · exact .inr (by omega)

/-- A subscription that was there and has stayed as it is, with its feeds as they are. -/
theorem view_of_mem (h : s.Valid) {s' : Store} (hfeeds : s'.feeds = s.feeds)
    (hr : r ∈ s.subscriptions) (hr' : r' ∈ s.subscriptions ∨ s.lastSubscriptionId < r'.id)
    (hid : r'.id = r.id) : s'.view r' = s.view r := by
  have := h.id_le r hr
  obtain rfl := h.eq_of_id (hr'.resolve_right (by omega)) hr hid
  unfold view feed?
  rw [hfeeds]

end Store

/-- **Clocks tell**: a subscription that a call leaves in place looks the same afterwards, or its
clock is later, or the call has bound it. -/
theorem Call.view_run {s : Store} (h : s.Valid) {c : Call} (hc : c.Proper) {r r' : SubscriptionRow}
    (hr : r ∈ s.subscriptions) (hr' : r' ∈ (c.run s).2.subscriptions) (hid : r'.id = r.id) :
    (c.run s).2.view r' = s.view r ∨ Stamp.Before r.updatedAt r'.updatedAt ∨
      ∃ feedId status stamp, c = .bind r.id feedId status stamp ∧ r.feedId = none ∧
        s.holder? r.user feedId = none ∧ r' = r.boundTo feedId status stamp := by
  cases c with
  | ensureFeed url stamp =>
    obtain rfl := h.eq_of_id (Store.subscriptions_ensureFeed url stamp s ▸ hr') hr hid
    refine .inl (Prod.ext rfl ?_)
    change Option.map _ (Option.bind _ (runEnsureFeed url stamp s).2.feed?) = _
    cases hfeed : r'.feedId with
    | none => simp [Store.view, hfeed]
    | some f =>
      obtain ⟨row, hrow⟩ := h.subscriptionFeed r' hr f hfeed
      have hfound := h.feed?_eq_some.2 hrow
      simp only [Store.view, hfeed, Option.bind_some, hfound,
        Store.feed?_ensureFeed url stamp hfound]
  | moveFeed id t => exact (Store.view_moveFeed h id hc hr hr' hid).imp_right .inl
  | insertRow row stamp =>
    refine .inl ?_
    simp only [run, runInsertRow] at hr' ⊢
    split at hr'
    · next ht =>
      obtain ⟨hfeeds, -, hrows⟩ := Store.view_insertRow ht
      exact Store.view_of_mem h hfeeds hr (hrows r' hr') hid
    · exact Store.view_of_mem h rfl hr (.inl hr') hid
  | insertBatch rows size stamp =>
    obtain ⟨hfeeds, -, hrows⟩ := Store.view_insertBatch rows size stamp s
    exact .inl (Store.view_of_mem h hfeeds hr (hrows r' hr') hid)
  | deleteSubscription id user =>
    exact .inl (Store.view_of_mem h rfl hr (.inl (List.mem_of_mem_filter hr')) hid)
  | swapOffset id user offset =>
    exact (Store.view_swapOffset h id user offset hc hr hr' hid).imp_right .inl
  | bind id feedId status stamp =>
    refine (Store.view_bind h id feedId status stamp hr hr' hid).imp_right fun hbound => .inr ?_
    obtain ⟨⟨rfl, hunbound, hfree⟩, hrow⟩ := hbound
    exact ⟨feedId, status, stamp, rfl, hunbound, hfree, hrow⟩
  | addSnapshot d stamp =>
    simp only [run, runAddSnapshot] at hr' ⊢
    split at hr' <;> exact .inl (Store.view_of_mem h rfl hr (.inl hr') hid)
  | _ => exact .inl (Store.view_of_mem h rfl hr (.inl hr') hid)

/-! ## Subscriptions that are left in place -/

/-- What a call may make of a subscription: it keeps it, lets it follow the feed whose crawl has
ended, changes its offset, or binds it. -/
inductive Call.TurnsInto (s : Store) (r : SubscriptionRow) : Call → SubscriptionRow → Prop
  | keeps {c : Call} (hquiet : ∀ id t, c = .moveFeed id t → (s.moveFeed id t).1 = .moved →
      t.target = .updating) : TurnsInto s r c r
  | follows {id : Int} {t : Transition} {now : Instant} {r' : SubscriptionRow}
      (hmoved : (s.moveFeed id t).1 = .moved) (hends : t.target ≠ .updating)
      (hfollow : r.follow id t.target now t.rewrites = .ok r') : TurnsInto s r (.moveFeed id t) r'
  | reads (user offset : Int) (seen stamp : String) :
      TurnsInto s r (.swapOffset r.id user offset seen stamp)
        { r with storyOffset := offset, updatedAt := stamp }
  | binds {feedId : Int} {status : Status} {stamp : String} (hunbound : r.feedId = none) :
      TurnsInto s r (.bind r.id feedId status stamp) (r.boundTo feedId status stamp)

theorem Call.turnsInto_run {s : Store} (h : s.Valid) (c : Call) {r r' : SubscriptionRow}
    (hr : r ∈ s.subscriptions) (hr' : r' ∈ (c.run s).2.subscriptions) (hid : r'.id = r.id) :
    c.TurnsInto s r r' := by
  have kept (hrow : r' ∈ s.subscriptions) (hquiet : ∀ id t, c = .moveFeed id t →
      (s.moveFeed id t).1 = .moved → t.target = .updating) : c.TurnsInto s r r' :=
    h.eq_of_id hrow hr hid ▸ .keeps hquiet
  cases c with
  | ensureFeed url stamp =>
    exact kept (Store.subscriptions_ensureFeed url stamp s ▸ hr') (by simp)
  | moveFeed id t =>
    rcases Store.moveFeed_cases s id t with ⟨hnot, hs⟩ | ⟨_, rows, -, -, hfollow, hs⟩
    · simp only [run, hs] at hr'
      refine kept hr' fun k u heq hmoved => ?_
      obtain ⟨rfl, rfl⟩ := Call.moveFeed.inj heq
      exact absurd hmoved hnot
    · simp only [run, hs] at hr'
      rcases Store.followers_cases hfollow with ⟨hbegins, rfl⟩ | ⟨hends, now, -, hrows⟩
      · refine kept hr' fun k u heq _ => ?_
        obtain ⟨rfl, rfl⟩ := Call.moveFeed.inj heq
        exact hbegins
      · obtain ⟨r₀, hr₀, hfollowed⟩ := forall₂_right hrows hr'
        have hid₀ : r₀.id = r'.id := by
          rcases r₀.follow_cases hfollowed with ⟨rfl, -⟩ | ⟨-, _, _, -, -, rfl⟩ <;> rfl
        obtain rfl := h.eq_of_id hr₀ hr (hid₀.trans hid)
        exact .follows (congrArg Prod.fst hs) hends hfollowed
  | addSnapshot d stamp =>
    simp only [run, runAddSnapshot] at hr'
    split at hr' <;> exact kept hr' (by simp)
  | insertRow row stamp =>
    have hlast := h.id_le r hr
    simp only [run, runInsertRow] at hr'
    split at hr'
    · next ht =>
      obtain ⟨-, -, hrows⟩ := Store.view_insertRow ht
      exact kept ((hrows r' hr').resolve_right (by omega)) (by simp)
    · exact kept hr' (by simp)
  | insertBatch rows size stamp =>
    have hlast := h.id_le r hr
    obtain ⟨-, -, hrows⟩ := Store.view_insertBatch rows size stamp s
    exact kept ((hrows r' hr').resolve_right (by omega)) (by simp)
  | deleteSubscription id user => exact kept (List.mem_of_mem_filter hr') (by simp)
  | swapOffset id user offset seen stamp =>
    obtain ⟨r₀, hr₀, rfl⟩ := List.mem_map.1 hr'
    split at hid
    · next hmeets =>
      obtain rfl := h.eq_of_id hr₀ hr hid
      obtain ⟨⟨rfl, -⟩, -⟩ : (r₀.id = id ∧ r₀.user = user) ∧ r₀.updatedAt = seen := by
        simpa [isOwned] using hmeets
      rw [if_pos hmeets]
      exact .reads user offset seen stamp
    · next hmeets =>
      rw [if_neg hmeets] at hr' ⊢
      exact h.eq_of_id hr₀ hr hid ▸ .keeps (by simp)
  | bind id feedId status stamp =>
    rcases Store.view_bind h id feedId status stamp hr hr' hid with hview |
      ⟨⟨rfl, hunbound, -⟩, rfl⟩
    · obtain rfl : r' = r := congrArg Prod.fst hview
      exact .keeps (by simp)
    · exact .binds hunbound
  | _ => exact kept hr' (by simp)

/-- **Only a binding gives a subscription a feed**: any other call leaves it the feed it has. -/
theorem Call.feedId_run {s : Store} (h : s.Valid) (c : Call) {r r' : SubscriptionRow}
    (hr : r ∈ s.subscriptions) (hr' : r' ∈ (c.run s).2.subscriptions) (hid : r'.id = r.id) :
    r'.feedId = r.feedId ∨ ∃ feedId status stamp, c = .bind r.id feedId status stamp ∧
      r.feedId = none ∧ r' = r.boundTo feedId status stamp := by
  cases c.turnsInto_run h hr hr' hid with
  | keeps _ => exact .inl rfl
  | follows _ _ hfollow =>
    rcases r.follow_cases hfollow with ⟨rfl, -⟩ | ⟨-, _, _, -, -, rfl⟩ <;> exact .inl rfl
  | reads user offset seen stamp => exact .inl rfl
  | binds hunbound => exact .inr ⟨_, _, _, rfl, hunbound, rfl⟩

end Syndication
