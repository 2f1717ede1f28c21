import Syndication.Proofs.Program.System
import Syndication.Proofs.Store.Step
/-!
# Crawls that finish while others run

Whether an update is a change and which clock the feed gets is decided on the feed as a crawl has
found it, before the call that commits the decision. `System.finish_step` says exactly when the
commit leaves what finishing the crawl at one stroke would have left: the feed as it stands at the
commit has to lead to the same decision, or to one that makes no difference. It does where no other
crawl of the feed has finished in between (`System.finish_undisturbed`);
`System.finish_mixes_payloads` is a run in which one has.
-/

namespace Syndication

/-- A transition that does not finish a crawl leaves what is known of a feed's payload. -/
theorem FeedRow.fingerprint_apply (f : FeedRow) {t : Transition} (h : t.target ≠ .ready) :
    (f.apply t).fingerprint = f.fingerprint := by
  cases t with
  | begin checkedAt => rfl
  | finish => exact absurd rfl h
  | fail now => rfl

/-- Only a crawl that finishes changes what describes a feed or what is known of its payload. -/
theorem Call.feed?_run {s : Store} {c : Call} {id : Int} {row : FeedRow}
    (hrow : s.feed? id = some row) (hc : ∀ t, t.target = .ready → c ≠ .moveFeed id t) :
    ∃ row', (c.run s).2.feed? id = some row' ∧ row'.description = row.description ∧
      row'.fingerprint = row.fingerprint := by
  cases hmoves : c.moved? s with
  | none =>
    obtain ⟨created, hfeeds, -⟩ := feeds_run hmoves
    refine ⟨row, ?_, rfl, rfl⟩
    unfold Store.feed? at hrow ⊢
    rw [hfeeds, List.find?_append, hrow, Option.some_or]
  | some moved =>
    obtain ⟨k, t⟩ := moved
    have hleft : (c.run s).2.feed? id = some (if row.id = k then row.apply t else row) := by
      have hedit := s.feed?_editFeed k id fun f => f.id_apply t
      unfold Store.feed? at hedit hrow ⊢
      rw [(feeds_run_of_moved hmoves).2, hedit, hrow, Option.map_some]
    refine ⟨_, hleft, ?_⟩
    split
    · next hk =>
      obtain rfl : id = k := (Store.mem_of_feed? hrow).2.symm.trans hk
      have ht : t.target ≠ .ready := fun ht => hc t ht (moved?_eq_some.1 hmoves).1
      exact ⟨row.description_apply (t.rewrites_of_target ht), row.fingerprint_apply ht⟩
    · exact ⟨rfl, rfl⟩

/-- What finishing a crawl writes into a feed that it has found as a row, at the times `t₁` and `t₂`
that it has read after that; nothing if the row cannot be loaded or has no next clock. -/
def FeedRow.finishing (update : Feed.Update) (t₁ t₂ : Instant) (row : FeedRow) :
    Option Transition :=
  match row.load true with
  | .error _ => none
  | .ok feed => (Instant.advance? feed.updatedAt t₂.truncate).map fun next =>
    .finish update (!update.fingerprint.agrees row.fingerprint) next.stamp t₁.truncate.stamp
      t₁.truncate

/-- Finishing a crawl of the feed in `row` by one transition is as good as by another: both leave
the description alone, or both rewrite it with the same clock; or only the first rewrites it, with
what is there, and it moves no clock of a subscription that the second leaves alone. -/
def Transition.AsGoodAs (s : Store) (row : FeedRow) (t t' : Transition) : Prop :=
  (t.rewrites = t'.rewrites ∧ (t.rewrites = true → t = t')) ∨
    (t.rewrites = true ∧ t'.rewrites = false ∧ row.apply t = row.apply t' ∧
      ∀ r ∈ s.subscriptions, r.feedId = some row.id → r.status ≠ Status.ready.name)

/-- No status comes before itself. -/
theorem Status.name_not_mem_predecessors (status : Status) :
    status.name ∉ status.predecessors.map Status.name := by
  cases status <;> decide

/-- A subscription that follows its feed does so alike whether or not it is forced to, unless it is
in the status already. -/
theorem SubscriptionRow.follow_eq_forced_iff {feedId : Int} {status : Status} {now : Instant}
    {r : SubscriptionRow} (hr : Stamp.IsWritten r.updatedAt) (hnow : now.IsWhole) :
    r.follow feedId status now true = r.follow feedId status now false ↔
      (r.feedId = some feedId → r.status ≠ status.name) := by
  constructor
  · intro heq hfeed hstatus
    have hstays : r.follow feedId status now false = .ok r := by simp [follow, hfeed, hstatus]
    obtain ⟨-, ⟨-, hother⟩ | hbefore⟩ := follow_before hr hnow (heq.trans hstays)
    · exact hother rfl hfeed
    · exact Stamp.Before.irrefl _ hbefore
  · intro h
    by_cases hfeed : r.feedId = some feedId
    · simp [follow, hfeed, h hfeed]
    · simp [follow, hfeed]

namespace FeedRow

variable {update : Feed.Update} {t₁ t₂ : Instant} {row : FeedRow} {t : Transition}

/-- What a crawl that finishes has decided. -/
theorem finishing_eq_some : row.finishing update t₁ t₂ = some t ↔ ∃ f next,
    row.load true = .ok f ∧ Instant.advance? f.updatedAt t₂.truncate = some next ∧
      t = .finish update (!update.fingerprint.agrees row.fingerprint) next.stamp
        t₁.truncate.stamp t₁.truncate := by
  unfold finishing
  cases row.load true with
  | error e => simp
  | ok f =>
    rw [Option.map_eq_some_iff]
    constructor
    · rintro ⟨next, hnext, rfl⟩
      exact ⟨f, next, rfl, hnext, rfl⟩
    · rintro ⟨_, next, hf, hnext, rfl⟩
      exact ⟨next, Except.ok.inj hf ▸ hnext, rfl⟩

end FeedRow

namespace Store

variable {s : Store} {id : Int} {row : FeedRow} {t t' : Transition}

/-- All that a transition does to a store is its call. -/
theorem ensures_transit_timed {clock : Nat → Instant} :
    (transit id t).Ensures .timed (fun _ _ => True) (fun y _ => y.1 = (s.moveFeed id t).2)
      (s, clock) := by
  refine ensures_transit True.intro fun outcome z hz => ?_
  obtain ⟨-, rfl⟩ := hz
  refine ⟨rfl, True.intro, fun _ _ hread => ?_⟩
  obtain ⟨-, rfl⟩ := hread
  rfl

/-- Finishing at one stroke either makes the transition that is decided on the feed as it is, or
ends with an error and nothing else. -/
theorem ensures_finishCrawl_timed {update : Feed.Update} {clock : Nat → Instant}
    {post : Store × (Nat → Instant) → Except StoreError Feed → Prop}
    (herror : (s.feed? id).bind (·.finishing update (clock 0) (clock 1)) = none →
      ∀ y e, y.1 = s → post y (.error e))
    (hdecided : ∀ row t, s.feed? id = some row →
      row.finishing update (clock 0) (clock 1) = some t →
        (transit id t).Ensures .timed (fun _ _ => True) post (s, fun n => clock (n + 2))) :
    (finishCrawl id update).Ensures .timed (fun _ _ => True) post (s, clock) := by
  refine ensures_finishCrawl.2 ⟨True.intro, fun found y hfound => ?_⟩
  obtain ⟨hfound, rfl⟩ := hfound
  obtain rfl : s.feed? id = found := hfound
  cases hrow : s.feed? id with
  | none => exact herror (by rw [hrow]; rfl) _ _ rfl
  | some row =>
    rw [hrow, Option.bind_some] at herror
    rw [Option.elim_some]
    cases hload : row.load true with
    | error e =>
      have hnone : row.finishing update (clock 0) (clock 1) = none := by
        simp only [FeedRow.finishing, hload]
      exact herror hnone _ _ rfl
    | ok f =>
      dsimp only [Except.map]
      intro t₁ y₁ h₁ t₂ y₂ h₂
      obtain ⟨rfl, rfl⟩ := h₁
      obtain ⟨rfl, rfl⟩ := h₂
      dsimp only
      rw [(FeedRow.load_eq_ok.1 hload).fingerprint]
      cases hnext : Instant.advance? f.updatedAt (clock 1).truncate with
      | none =>
        have hnone : row.finishing update (clock 0) (clock 1) = none := by
          simp only [FeedRow.finishing, hload, hnext, Option.map_none]
        exact herror hnone _ _ rfl
      | some next =>
        exact hdecided row _ hrow (FeedRow.finishing_eq_some.2 ⟨f, next, hload, hnext, rfl⟩)

/-- Finishing at one stroke is one transition, at the times that the clock shows. -/
theorem runOn_finishCrawl (id : Int) (update : Feed.Update) (clock : Nat → Instant) (s : Store) :
    ((finishCrawl id update).runOn clock s).2 =
      (((s.feed? id).bind (·.finishing update (clock 0) (clock 1))).elim s
        fun t => (s.moveFeed id t).2) := by
  generalize hleft : (((s.feed? id).bind (·.finishing update (clock 0) (clock 1))).elim s
    fun t => (s.moveFeed id t).2) = left
  have hfinish : (finishCrawl id update).Ensures .timed (fun _ _ => True) (fun y _ => y.1 = left)
      (s, clock) := by
    refine ensures_finishCrawl_timed (fun hnone y e hy => ?_) fun row t hrow ht => ?_
    · rw [hnone, Option.elim_none] at hleft
      exact hy.trans hleft
    · rw [hrow, Option.bind_some, ht, Option.elim_some] at hleft
      exact hleft ▸ ensures_transit_timed
  exact @Operation.Ensures.runOn_timed _ _ (fun s' _ => s' = left) _ _ _ hfinish

/-- A transition that moves a feed finds its row in a status that admits it, and its subscriptions
can follow. -/
theorem moveFeed_of_moved (hrow : s.feed? id = some row) (h : (s.moveFeed id t).1 = .moved) :
    row.status ∈ t.target.predecessors.map Status.name ∧ ∃ rows, s.followers id t = .ok rows ∧
      (s.moveFeed id t).2 = { s.editFeed id (·.apply t) with subscriptions := rows } := by
  rcases s.moveFeed_cases id t with ⟨hstays, -⟩ | ⟨_, rows, hfound, hstatus, hrows, hleft⟩
  · exact absurd h hstays
  · obtain rfl := Option.some.inj (hrow.symm.trans hfound)
    exact ⟨hstatus, rows, hrows, congrArg Prod.snd hleft⟩

theorem feed?_moveFeed (hrow : s.feed? id = some row) (h : (s.moveFeed id t).1 = .moved) :
    (s.moveFeed id t).2.feed? id = some (row.apply t) := by
  obtain ⟨-, rows, -, hleft⟩ := moveFeed_of_moved hrow h
  rw [hleft]
  change (s.editFeed id (·.apply t)).feed? id = _
  rw [feed?_editFeed s id id fun f => f.id_apply t, hrow, Option.map_some,
    if_pos (mem_of_feed? hrow).2]

/-- A transition that moves a feed changes its status. -/
theorem moveFeed_ne (hrow : s.feed? id = some row) (h : (s.moveFeed id t).1 = .moved) :
    (s.moveFeed id t).2 ≠ s := by
  intro heq
  have hfound := (feed?_moveFeed hrow h).symm.trans ((congrArg (Store.feed? · id) heq).trans hrow)
  have hstatus := (moveFeed_of_moved hrow h).1
  rw [← Option.some.inj hfound, FeedRow.status_apply] at hstatus
  exact t.target.name_not_mem_predecessors hstatus

/-- Two transitions into one status that move a feed leave the same if and only if they write the
same into its row and the subscriptions follow alike. -/
theorem moveFeed_eq_iff (hs : s.Valid) (hrow : s.feed? id = some row)
    (hmoved : (s.moveFeed id t).1 = .moved) (htarget : t.target = t'.target) :
    (s.moveFeed id t).2 = (s.moveFeed id t').2 ↔
      row.apply t = row.apply t' ∧ s.followers id t = s.followers id t' := by
  obtain ⟨hstatus, rows, hrows, hleft⟩ := moveFeed_of_moved hrow hmoved
  constructor
  · intro heq
    rcases s.moveFeed_cases id t' with ⟨-, hstays⟩ | ⟨_, rows', -, -, hrows', hleft'⟩
    · exact absurd (heq.trans hstays) (moveFeed_ne hrow hmoved)
    · have hmoved' : (s.moveFeed id t').1 = .moved := congrArg Prod.fst hleft'
      have hfound := (feed?_moveFeed hrow hmoved).symm.trans
        ((congrArg (Store.feed? · id) heq).trans (feed?_moveFeed hrow hmoved'))
      rw [hleft, hleft'] at heq
      obtain rfl : rows = rows' := congrArg Store.subscriptions heq
      exact ⟨Option.some.inj hfound, hrows.trans hrows'.symm⟩
  · rintro ⟨hsame, hfollow⟩
    have hfeeds : s.editFeed id (·.apply t) = s.editFeed id (·.apply t') := by
      unfold editFeed
      congr 1
      refine List.map_congr_left fun f hf => ?_
      split
      · next hid =>
        obtain ⟨hmem, hrowId⟩ := mem_of_feed? hrow
        obtain rfl := hs.feed_eq_of_id hf hmem (hid.trans hrowId.symm)
        exact hsame
      · rfl
    have hleft' : (s.moveFeed id t').2 =
        { s.editFeed id (·.apply t') with subscriptions := rows } := by
      unfold moveFeed
      rw [hrow]
      dsimp only
      rw [if_pos (htarget ▸ hstatus), ← hfollow, hrows]
    rw [hleft, hleft', hfeeds]

/-- A decision to finish leaves what a later decision on the same update would leave if and only if
it is as good. -/
theorem moveFeed_finish_eq_iff {update : Feed.Update} {changed changed' : Bool}
    {updatedAt updatedAt' syncedAt : String} {now : Instant} (hs : s.Valid)
    (hrow : s.feed? id = some row) (hnow : now.IsWhole)
    (hclock : Stamp.Before row.updatedAt updatedAt')
    (hmoved : (s.moveFeed id (.finish update changed updatedAt syncedAt now)).1 = .moved) :
    (s.moveFeed id (.finish update changed updatedAt syncedAt now)).2 =
        (s.moveFeed id (.finish update changed' updatedAt' syncedAt now)).2 ↔
      (Transition.finish update changed updatedAt syncedAt now).AsGoodAs s row
        (.finish update changed' updatedAt' syncedAt now) := by
  refine (moveFeed_eq_iff hs hrow hmoved (by rfl)).trans ?_
  unfold Transition.AsGoodAs
  simp only [Transition.rewrites, Transition.finish.injEq, true_and, and_true]
  match changed, changed' with
  | false, false => simp [FeedRow.apply, followers]
  | true, true =>
    -- all that the two may write differently is the clock
    simp [FeedRow.apply, followers]
  | false, true =>
    have hlater : row.updatedAt ≠ updatedAt' := fun heq => Stamp.Before.irrefl _ (heq ▸ hclock)
    simp [FeedRow.apply, hlater]
  | true, false =>
    have hfollow : s.followers id (.finish update true updatedAt syncedAt now) =
        s.followers id (.finish update false updatedAt' syncedAt now) ↔
          ∀ r ∈ s.subscriptions, r.feedId = some row.id → r.status ≠ Status.ready.name := by
      obtain ⟨-, rows, hrows, -⟩ := moveFeed_of_moved hrow hmoved
      rw [hrows, eq_comm, (mem_of_feed? hrow).2]
      refine (mapM_eq_ok_iff_eq hrows).trans (forall₂_congr fun r hr => ?_)
      rw [eq_comm]
      exact SubscriptionRow.follow_eq_forced_iff (hs.written_updatedAt hr) hnow
    simp [hfollow]

end Store

namespace FeedRow

variable {update : Feed.Update} {t₁ t₂ : Instant} {row : FeedRow} {t : Transition}

/-- A row after a crawl that has brought an update: a new payload rewrites what describes the feed
and what is known of the payload, and the clock moves on; one that is known already leaves the
description with its clock. -/
def Finished (update : Feed.Update) (row row' : FeedRow) : Prop :=
  if update.fingerprint.agrees row.fingerprint then row'.description = row.description
  else row'.profile = update.profile ∧ row'.fingerprint = update.fingerprint ∧
    Stamp.Before row.updatedAt row'.updatedAt

/-- A clock that a row has been loaded with and that has ticked. -/
theorem before_of_finishing {f : Feed} {now next : Instant}
    (hrow : Stamp.IsWritten row.updatedAt) (hload : row.load true = .ok f) (hnow : now.IsWhole)
    (hnext : Instant.advance? f.updatedAt now = some next) :
    Stamp.Before row.updatedAt next.stamp := by
  rw [← (Stamp.Holds.of_decode hrow (FeedRow.load_eq_ok.1 hload).updatedAt).2]
  exact .of_advance? hnow hnext

/-- A crawl that finishes on the row itself. -/
theorem finished_of_finishing (hrow : Stamp.IsWritten row.updatedAt)
    (ht : row.finishing update t₁ t₂ = some t) : row.Finished update (row.apply t) := by
  obtain ⟨f, next, hload, hnext, rfl⟩ := finishing_eq_some.1 ht
  unfold Finished
  split
  · next hagrees => exact row.description_apply (by simp [Transition.rewrites, hagrees])
  · next hagrees =>
    rw [Bool.eq_false_iff.2 hagrees]
    exact ⟨rfl, rfl, before_of_finishing hrow hload t₂.isWhole_truncate hnext⟩

end FeedRow

/-- A decision that is as good as one made on the row itself finishes the crawl as well. -/
theorem Transition.AsGoodAs.finished {s : Store} {update : Feed.Update} {t₁ t₂ : Instant}
    {row : FeedRow} {t t' : Transition} (h : t.AsGoodAs s row t')
    (hrow : Stamp.IsWritten row.updatedAt) (ht' : row.finishing update t₁ t₂ = some t') :
    row.Finished update (row.apply t) := by
  have hfinished := FeedRow.finished_of_finishing hrow ht'
  rcases h with ⟨hrewrites, hsame⟩ | ⟨-, -, hsame, -⟩
  · by_cases ht : t.rewrites = true
    · rwa [hsame ht]
    · obtain ⟨f, next, -, -, rfl⟩ := FeedRow.finishing_eq_some.1 ht'
      have hunchanged : (!update.fingerprint.agrees row.fingerprint) = false :=
        hrewrites.symm.trans (Bool.eq_false_iff.2 ht)
      rw [FeedRow.Finished, if_pos (by simpa using hunchanged)]
      exact row.description_apply (Bool.eq_false_iff.2 ht)
  · rwa [hsame]

namespace System

variable {x y : System}

/-- A request that is about to finish a crawl has found the feed and read the time twice, and its
decision comes of that. -/
theorem Sound.finishing (hx : x.Sound) {i : Nat} {id : Int} {t : Transition} {request : Request}
    {past : List Event} {rest : Moved → Program (Except StoreError Reply)}
    (hi : x.running[i]? = some ⟨request, past, .call (.moveFeed id t) rest⟩)
    (ht : t.target = .ready) : ∃ update seen t₁ t₂, request = .finishCrawl id update ∧
      past = [.called (.findFeed id) (some seen), .read t₁, .read t₂] ∧
      seen.finishing update t₁ t₂ = some t := by
  have hallowed := (hx.running _ (List.mem_of_getElem? hi)).allowed
  cases t with
  | begin => cases ht
  | fail => cases ht
  | finish update changed updatedAt syncedAt now =>
    obtain ⟨rfl, hseen⟩ := hallowed
    cases hseen with
    | @seen row f t₁ t₂ next hload hnext =>
      exact ⟨update, row, t₁, t₂, rfl, rfl,
        FeedRow.finishing_eq_some.2 ⟨f, next, hload, hnext, rfl⟩⟩

/-! ## A crawl that nobody overtakes -/

/-- The next call of a request finishes a crawl of a feed. -/
def Finishes (id : Int) (x : System) (a : Action) : Prop :=
  ∃ i request past t rest, a = .call i ∧ t.target = .ready ∧
    x.running[i]? = some ⟨request, past, .call (.moveFeed id t) rest⟩

/-- The request at a place has found a feed first, and since then neither what describes the feed
nor what is known of its payload has changed. -/
structure Awaits (id : Int) (i : Nat) (seen : FeedRow) (x : System) : Prop where
  row : ∃ row, x.store.feed? id = some row ∧ row.description = seen.description ∧
    row.fingerprint = seen.fingerprint
  past : ∃ request past rest,
    x.running[i]? = some ⟨request, .called (.findFeed id) (some seen) :: past, rest⟩

namespace Awaits

variable {id : Int} {i : Nat} {seen : FeedRow} {a : Action}

/-- A request that has moved on has seen one event more. -/
theorem past_set (h : x.Awaits id i seen) {j : Nat} {request : Request} {past : List Event}
    {rest : Program (Except StoreError Reply)} (hj : x.running[j]? = some ⟨request, past, rest⟩)
    (e : Event) (rest' : Program (Except StoreError Reply)) : ∃ request' past' rest'',
      (x.running.set j ⟨request, past ++ [e], rest'⟩)[i]? =
        some ⟨request', .called (.findFeed id) (some seen) :: past', rest''⟩ := by
  obtain ⟨request', past', rest'', hi⟩ := h.past
  by_cases hij : j = i
  · obtain rfl := hij
    obtain ⟨rfl, rfl, rfl⟩ := Running.mk.inj (Option.some.inj (hj.symm.trans hi))
    refine ⟨request, past' ++ [e], rest', ?_⟩
    rw [List.getElem?_set_self (List.getElem?_eq_some_iff.1 hj).1]
    rfl
  · exact ⟨request', past', rest'', by rw [List.getElem?_set_ne hij, hi]⟩

theorem act (h : x.Awaits id i seen) (hy : x.act a = some y) (hquiet : ¬ x.Finishes id a) :
    y.Awaits id i seen := by
  cases act_eq_some.1 hy with
  | start request =>
    obtain ⟨request', past, rest, hi⟩ := h.past
    refine ⟨h.row, request', past, rest, ?_⟩
    rw [List.getElem?_append_left (List.getElem?_eq_some_iff.1 hi).1, hi]
  | read t hj => exact ⟨h.row, h.past_set hj _ _⟩
  | @call j request past c next hj =>
    obtain ⟨row, hrow, hdescription, hfingerprint⟩ := h.row
    have hother : ∀ t, t.target = .ready → c ≠ .moveFeed id t := by
      rintro t ht rfl
      exact hquiet ⟨j, _, _, t, _, rfl, ht, hj⟩
    obtain ⟨row', hrow', hdescription', hfingerprint'⟩ := Call.feed?_run hrow hother
    exact ⟨⟨row', hrow', hdescription'.trans hdescription, hfingerprint'.trans hfingerprint⟩,
      h.past_set hj _ _⟩

theorem runs (h : x.Awaits id i seen) (hy : x.Runs (fun z a => ¬ z.Finishes id a) y) :
    y.Awaits id i seen := by
  induction hy with
  | refl => exact h
  | step _ _ hquiet hz ih => exact ih.act hz hquiet

end Awaits

/-- **A crawl that nobody overtakes**: if no crawl of the feed finishes after a request has found it
and before the call that finishes its own crawl, that call leaves what the whole request would
leave if it ran at once in that state with the times that it has read. -/
theorem finish_undisturbed {x₀ : System} (hx₀ : x₀.Reachable) {i : Nat} {id : Int} {seen : FeedRow}
    {request₀ request : Request} {rest₀ : Program (Except StoreError Reply)} {past : List Event}
    {t : Transition} {rest : Moved → Program (Except StoreError Reply)}
    (hi₀ : x₀.running[i]? = some ⟨request₀, [.called (.findFeed id) (some seen)], rest₀⟩)
    (hseen : x₀.store.feed? id = some seen) (hx : x₀.Runs (fun z a => ¬ z.Finishes id a) x)
    (hi : x.running[i]? = some ⟨request, past, .call (.moveFeed id t) rest⟩)
    (ht : t.target = .ready) (hyears : x.store.InYears) (hy : x.act (.call i) = some y) :
    ∃ update t₁ t₂, request = .finishCrawl id update ∧
      past = [.called (.findFeed id) (some seen), .read t₁, .read t₂] ∧
      ∀ clock : Nat → Instant, clock 0 = t₁ → clock 1 = t₂ →
        y.store = ((Store.finishCrawl id update).runOn clock x.store).2 := by
  have hsound : x.Sound := hx₀.sound.runs hx
  have hawaits : x.Awaits id i seen :=
    Awaits.runs ⟨⟨seen, hseen, rfl, rfl⟩, ⟨request₀, [], rest₀, hi₀⟩⟩ hx
  obtain ⟨update, seen', t₁, t₂, rfl, rfl, hdecided⟩ := hsound.finishing hi ht
  obtain ⟨_, _, _, hpast⟩ := hawaits.past
  obtain ⟨row, hrow, hdescription, hfingerprint⟩ := hawaits.row
  rw [hi, Option.some.injEq, Running.mk.injEq, List.cons.injEq] at hpast
  obtain rfl : seen' = seen := Option.some.inj (eq_of_heq (Event.called.inj hpast.2.1.1).2)
  refine ⟨update, t₁, t₂, rfl, rfl, ?_⟩
  rintro clock rfl rfl
  obtain rfl := Option.some.inj (hy.symm.trans (act_eq_some.2 (.call hi)))
  -- the clock that the row has is the one that was found, so it ticks to the same
  obtain ⟨f, next, hload, hnext, rfl⟩ := FeedRow.finishing_eq_some.1 hdecided
  obtain ⟨f', hload'⟩ := hsound.valid.feed_loads hyears true (Store.mem_of_feed? hrow).1
  have hclock : f'.updatedAt = f.updatedAt := by
    have hsame : row.updatedAt = seen'.updatedAt :=
      congrArg FeedRow.Description.updatedAt hdescription
    have hnow := (FeedRow.load_eq_ok.1 hload').updatedAt
    rw [hsame] at hnow
    exact Except.ok.inj (hnow.symm.trans (FeedRow.load_eq_ok.1 hload).updatedAt)
  have hdecided' : row.finishing update (clock 0) (clock 1) = _ :=
    FeedRow.finishing_eq_some.2 ⟨f', next, hload', hclock ▸ hnext, rfl⟩
  rw [Store.runOn_finishCrawl, hrow, Option.bind_some, hdecided', hfingerprint]
  rfl

/-! ## A crawl that is overtaken -/

/-- A crawl that brings a title and a payload of one byte. -/
def titled (title : String) (byte : UInt8) : Feed.Update :=
  ⟨{ Feed.Profile.empty with title := some title }, none, 0, ⟨some 1, some [byte], none, none⟩⟩

/-- A crawl has brought the title A. The next one brings it again, finds the feed and reads the
time; another one brings the title B instead and finishes, and one more crawl begins. The clock
stands still. -/
def finishingOvertaken : List Action :=
  [.start (.getOrCreateFeed "http://a.com/rss.xml"), .read 0 .epoch, .call 0,
    .start (.beginCrawl 1), .read 1 .epoch, .call 1,
    .start (.finishCrawl 1 (titled "A" 1)), .call 2, .read 2 .epoch, .read 2 .epoch, .call 2,
    .start (.beginCrawl 1), .read 3 .epoch, .call 3,
    .start (.finishCrawl 1 (titled "A" 1)), .call 4, .read 4 .epoch, .read 4 .epoch,
    .start (.finishCrawl 1 (titled "B" 2)), .call 5, .read 5 .epoch, .read 5 .epoch, .call 5,
    .start (.beginCrawl 1), .read 6 .epoch, .call 6]

theorem proper_finishingOvertaken : ∀ a ∈ finishingOvertaken, a.Proper := by
  simp [finishingOvertaken, Action.Proper, Request.Proper]

deriving instance DecidableEq for Feed.Update, Transition

/-- The transition that a request at a place makes next, with the feed and the times that it has
read. -/
def moving? (x : System) (i : Nat) : Option (Int × Transition × Instant × Instant) :=
  match x.running[i]? with
  | some ⟨_, [_, .read t₁, .read t₂], .call (.moveFeed id t) _⟩ => some (id, t, t₁, t₂)
  | _ => none

theorem moving?_eq_some {x : System} {i : Nat} {id : Int} {t : Transition} {t₁ t₂ : Instant}
    (h : x.moving? i = some (id, t, t₁, t₂)) : ∃ request e rest,
      x.running[i]? = some ⟨request, [e, .read t₁, .read t₂], .call (.moveFeed id t) rest⟩ := by
  unfold moving? at h
  split at h
  · next hi =>
    cases h
    exact ⟨_, _, _, hi⟩
  · cases h

/-- The crawl that has been overtaken leaves the title B with the payload that came with A. -/
theorem act_finishingOvertaken : ∃ x y : System, ∃ t request e rest, x.Reachable ∧
    x.running[4]? =
      some ⟨request, [e, .read .epoch, .read .epoch], .call (.moveFeed 1 t) rest⟩ ∧
    request = .finishCrawl 1 (titled "A" 1) ∧ t.target = .ready ∧
    (x.store.moveFeed 1 t).1 = .moved ∧ x.act (.call 4) = some y ∧
    (y.store.feed? 1).map (fun f => (f.profile.title, f.fingerprint.hash)) =
      some (some "B", some [1]) ∧
    (((Store.finishCrawl 1 (titled "A" 1)).runOn (fun _ => .epoch) x.store).2.feed? 1).map
      (fun f => (f.profile.title, f.fingerprint.hash)) = some (some "A", some [1]) := by
  let t : Transition := .finish (titled "A" 1) false "1970-01-01T00:00:00.000002Z"
    "1970-01-01T00:00:00.000000Z" .epoch
  let feed : FeedRow := ⟨1, "http://a.com/rss.xml", "updating", (titled "B" 2).profile,
    "1970-01-01T00:00:00.000000Z", "1970-01-01T00:00:00.000002Z", 0, none,
    (titled "B" 2).fingerprint, some "1970-01-01T00:00:00.000000Z",
    some "1970-01-01T00:00:00.000000Z"⟩
  have hplay : (initial.play finishingOvertaken).map (fun x => (x.store, x.moving? 4)) =
      some (⟨[feed], [], [], [], 0⟩, some (1, t, .epoch, .epoch)) := by decide +kernel
  obtain ⟨x, hx, heq⟩ := Option.map_eq_some_iff.1 hplay
  obtain ⟨hstore, hmoving⟩ := Prod.mk.inj heq
  obtain ⟨request, e, rest, hi⟩ := moving?_eq_some hmoving
  have hreachable : x.Reachable := runs_of_play proper_finishingOvertaken hx
  obtain ⟨update, seen, t₁, t₂, rfl, -, hseen⟩ := hreachable.sound.finishing hi rfl
  obtain ⟨f, next, -, -, ht⟩ := FeedRow.finishing_eq_some.1 hseen
  obtain rfl : titled "A" 1 = update := (Transition.finish.inj ht).1
  refine ⟨x, _, t, _, e, rest, hreachable, hi, rfl, rfl, ?_, act_eq_some.2 (.call hi), ?_, ?_⟩
  · rw [hstore]
    decide +kernel
  · change ((x.store.moveFeed 1 t).2.feed? 1).map _ = _
    rw [hstore]
    decide +kernel
  · rw [hstore]
    decide +kernel

/-- **Finishing a crawl against finishing it at one stroke**: the call that finishes a crawl leaves
what the whole request would leave if it ran at once in that state with the times that it has read,
if and only if its decision is as good as the one that the row as it stands would lead to. Where it
is, a new payload rewrites the feed and moves its clock, and a known one does not. -/
theorem finish_step (hx : x.Reachable) {i : Nat} {id : Int} {t : Transition} {request : Request}
    {past : List Event} {rest : Moved → Program (Except StoreError Reply)}
    (hi : x.running[i]? = some ⟨request, past, .call (.moveFeed id t) rest⟩)
    (ht : t.target = .ready) (hmoved : (x.store.moveFeed id t).1 = .moved)
    (hy : x.act (.call i) = some y) :
    ∃ update seen t₁ t₂ row, request = .finishCrawl id update ∧
      past = [.called (.findFeed id) (some seen), .read t₁, .read t₂] ∧
      seen.finishing update t₁ t₂ = some t ∧
      x.store.feed? id = some row ∧ y.store.feed? id = some (row.apply t) ∧
      (∀ clock : Nat → Instant, clock 0 = t₁ → clock 1 = t₂ →
        (y.store = ((Store.finishCrawl id update).runOn clock x.store).2 ↔
          ∃ t', row.finishing update t₁ t₂ = some t' ∧ t.AsGoodAs x.store row t')) ∧
      ∀ t', row.finishing update t₁ t₂ = some t' → t.AsGoodAs x.store row t' →
        row.Finished update (row.apply t) := by
  have hsound := hx.sound
  obtain ⟨update, seen, t₁, t₂, rfl, rfl, hseen⟩ := hsound.finishing hi ht
  obtain rfl := Option.some.inj (hy.symm.trans (act_eq_some.2 (.call hi)))
  rcases x.store.moveFeed_cases id t with ⟨hstays, -⟩ | ⟨row, rows, hrow, -⟩
  · exact absurd hmoved hstays
  have hwritten : Stamp.IsWritten row.updatedAt :=
    hsound.valid.feedStamps row (Store.mem_of_feed? hrow).1 _ (by simp [FeedRow.stamps])
  refine ⟨update, seen, t₁, t₂, row, rfl, rfl, hseen, hrow, Store.feed?_moveFeed hrow hmoved, ?_,
    fun t' ht' hgood => hgood.finished hwritten ht'⟩
  rintro clock rfl rfl
  rw [Store.runOn_finishCrawl, hrow, Option.bind_some]
  change (x.store.moveFeed id t).2 = _ ↔ _
  cases hnow : row.finishing update (clock 0) (clock 1) with
  | none =>
    refine ⟨fun heq => absurd heq (Store.moveFeed_ne hrow hmoved), ?_⟩
    rintro ⟨t', ht', -⟩
    cases ht'
  | some t' =>
    obtain ⟨f, next, -, -, rfl⟩ := FeedRow.finishing_eq_some.1 hseen
    obtain ⟨f', next', hload', hnext', rfl⟩ := FeedRow.finishing_eq_some.1 hnow
    have hclock := FeedRow.before_of_finishing hwritten hload' (clock 1).isWhole_truncate hnext'
    rw [Option.elim_some, Store.moveFeed_finish_eq_iff hsound.valid hrow
      (clock 0).isWhole_truncate hclock hmoved]
    constructor
    · exact fun h => ⟨_, rfl, h⟩
    · rintro ⟨t', ht', h⟩
      exact Option.some.inj ht' ▸ h

/-- The law at a crawl that has been overtaken. -/
theorem finish_step_finishingOvertaken : ∃ x y : System, ∃ t request e rest, x.Reachable ∧
    x.running[4]? =
      some ⟨request, [e, .read .epoch, .read .epoch], .call (.moveFeed 1 t) rest⟩ ∧
    t.target = .ready ∧ (x.store.moveFeed 1 t).1 = .moved ∧ x.act (.call 4) = some y ∧
    ∃ seen row : FeedRow, seen.finishing (titled "A" 1) .epoch .epoch = some t ∧
      x.store.feed? 1 = some row ∧
      (y.store = ((Store.finishCrawl 1 (titled "A" 1)).runOn (fun _ => .epoch) x.store).2 ↔
        ∃ t', row.finishing (titled "A" 1) .epoch .epoch = some t' ∧
          t.AsGoodAs x.store row t') := by
  obtain ⟨x, y, t, _, e, rest, hx, hi, rfl, ht, hmoved, hy, -⟩ := act_finishingOvertaken
  obtain ⟨update, seen, t₁, t₂, row, hrequest, hpast, hseen, hrow, -, hiff, -⟩ :=
    finish_step hx hi ht hmoved hy
  cases hrequest
  cases hpast
  exact ⟨x, y, t, _, _, rest, hx, hi, ht, hmoved, hy, seen, row, hseen, hrow,
    hiff (fun _ => .epoch) rfl rfl⟩

/-- A crawl leaves what describes one payload with what is known of another. Finished at one stroke
it would have rewritten the description. -/
theorem finish_mixes_payloads : ∃ x y : System, ∃ t e rest, x.Reachable ∧
    x.running[4]? = some ⟨.finishCrawl 1 (titled "A" 1), [e, .read .epoch, .read .epoch],
      .call (.moveFeed 1 t) rest⟩ ∧
    (x.store.moveFeed 1 t).1 = .moved ∧ x.act (.call 4) = some y ∧
    (y.store.feed? 1).map (fun f => (f.profile.title, f.fingerprint.hash)) =
      some (some "B", some [1]) ∧
    y.store ≠ ((Store.finishCrawl 1 (titled "A" 1)).runOn (fun _ => .epoch) x.store).2 := by
  obtain ⟨x, y, t, _, e, rest, hx, hi, rfl, -, hmoved, hy, hmixed, hwhole⟩ := act_finishingOvertaken
  refine ⟨x, y, t, e, rest, hx, hi, hmoved, hy, hmixed, fun heq => ?_⟩
  rw [← heq, hmixed] at hwhole
  exact absurd hwhole (by decide)

end System

end Syndication
