import Syndication.Proofs.Program.Crawls
import Syndication.Proofs.Subscription.Binding
/-!
# Subscriptions follow the crawls of their feed

A subscription that is bound to a feed has the status in which the last crawl of the feed that has
ended since then has left it, and the status that it was bound with as long as none has ended. A
crawl that begins does not show, and nobody else has a part in it: one call makes of the status of
a bound subscription what its transition says (`Call.status_run`), therefore every run makes of it
what the last transition says that ends a crawl (`System.Reachable.status_play`,
`System.subscription_follows_crawls`).
-/

namespace Syndication

/-! ## Crawls that end -/

namespace Commit

/-- How the last crawl of a feed has ended, of those that have ended in a log. -/
def lastEnd? (feed : Int) (log : List Commit) : Option Status :=
  (((ofFeed feed log).map (·.target)).filter (· ≠ .updating)).getLast?

variable {feed : Int} {log log' : List Commit}

theorem lastEnd?_append :
    lastEnd? feed (log ++ log') = (lastEnd? feed log').or (lastEnd? feed log) := by
  rw [lastEnd?, ofFeed_append, List.map_append, List.filter_append, List.getLast?_append]
  rfl

theorem lastEnd?_singleton (c : Commit) : lastEnd? feed [c] =
    if c.feed = feed ∧ c.transition.target ≠ .updating then some c.transition.target else none := by
  by_cases hfeed : c.feed = feed <;> by_cases hends : c.transition.target = .updating <;>
    simp [lastEnd?, ofFeed, hfeed, hends]

/-- Where at most begins come of a feed no crawl of it has ended. -/
theorem lastEnd?_eq_none :
    lastEnd? feed log = none ↔ ∀ c ∈ log, c.feed = feed → c.transition.target = .updating := by
  rw [lastEnd?, List.getLast?_eq_none_iff, List.filter_eq_nil_iff, List.forall_mem_map, ofFeed,
    List.forall_mem_map, List.forall_mem_filter]
  simp

theorem lastEnd?_of_split {c : Commit} (hfeed : c.feed = feed)
    (hends : c.transition.target ≠ .updating)
    (hlater : ∀ c' ∈ log', c'.feed = feed → c'.transition.target = .updating) :
    lastEnd? feed (log ++ c :: log') = some c.transition.target := by
  rw [List.append_cons, lastEnd?_append, lastEnd?_eq_none.2 hlater, Option.none_or,
    lastEnd?_append, lastEnd?_singleton, if_pos ⟨hfeed, hends⟩, Option.some_or]

end Commit

/-! ## The status of a bound subscription -/

/-- **Only the end of a crawl changes the status of a bound subscription**, into its own. The place
is that of the request that makes the call. -/
theorem Call.status_run {s : Store} (h : s.Valid) (c : Call) (i : Nat) {f : Int}
    {r r' : SubscriptionRow} (hr : r ∈ s.subscriptions) (hf : r.feedId = some f)
    (hr' : r' ∈ (c.run s).2.subscriptions) (hid : r'.id = r.id) :
    r'.status = (Commit.lastEnd? f ((c.moved? s).map fun (feed, t) => ⟨i, feed, t⟩).toList).elim
      r.status Status.name := by
  cases c.turnsInto_run h hr hr' hid with
  | keeps hquiet =>
    have hnone : Commit.lastEnd? f ((c.moved? s).map fun (feed, t) => ⟨i, feed, t⟩).toList =
        none := by
      refine Commit.lastEnd?_eq_none.2 fun commit hcommit _ => ?_
      obtain ⟨⟨id, t⟩, hmoves, rfl⟩ := Option.map_eq_some_iff.1 (Option.mem_toList.1 hcommit)
      obtain ⟨hc, hmoved⟩ := moved?_eq_some.1 hmoves
      exact hquiet id t hc hmoved
    rw [hnone, Option.elim_none]
  | @follows id t now _ hmoved hends hfollow =>
    rw [moved?_eq_some.2 ⟨rfl, hmoved⟩, Option.map_some, Option.toList_some,
      Commit.lastEnd?_singleton]
    by_cases hfeed : id = f
    · obtain rfl := hfeed
      rw [if_pos ⟨rfl, hends⟩, Option.elim_some]
      rcases r.follow_cases hfollow with ⟨rfl, hsame⟩ | ⟨-, _, _, -, -, rfl⟩
      · exact (hsame hf).2
      · rfl
    · rw [if_neg fun hcond => hfeed hcond.1, Option.elim_none]
      rcases r.follow_cases hfollow with ⟨rfl, -⟩ | ⟨hbound, -⟩
      · rfl
      · exact absurd (Option.some.inj (hbound.symm.trans hf)) hfeed
  | reads user offset seen stamp => rfl
  | binds hunbound =>
    rw [hunbound] at hf
    cases hf

/-- Who ends a crawl is a request to finish it or to fail it. -/
theorem Request.ends_of_crawl? {request : Request} {feed : Int} {status : Status}
    (h : request.crawl? = some (feed, status)) (hends : status ≠ .updating) :
    request = .failCrawl feed ∨ ∃ update, request = .finishCrawl feed update := by
  cases request with
  | beginCrawl id =>
    obtain ⟨-, rfl⟩ := Prod.mk.inj (Option.some.inj h)
    exact absurd rfl hends
  | finishCrawl id update =>
    obtain ⟨rfl, -⟩ := Prod.mk.inj (Option.some.inj h)
    exact .inr ⟨update, rfl⟩
  | failCrawl id =>
    obtain ⟨rfl, -⟩ := Prod.mk.inj (Option.some.inj h)
    exact .inl rfl
  | _ => cases h

namespace System

variable {x y : System} {a : Action} {actions : List Action} {f : Int} {r r' : SubscriptionRow}

theorem Sound.status_act (hx : x.Sound) (hr : r ∈ x.store.subscriptions) (hf : r.feedId = some f)
    (hy : x.act a = some y) (hr' : r' ∈ y.store.subscriptions) (hid : r'.id = r.id) :
    r'.status = (Commit.lastEnd? f (x.commit? a).toList).elim r.status Status.name := by
  have same (hrow : r' ∈ x.store.subscriptions) : r'.status = r.status := by
    rw [hx.valid.eq_of_id hrow hr hid]
  cases act_eq_some.1 hy with
  | start request => exact same hr'
  | read t hi => exact same hr'
  | @call i request past c next hi =>
    rw [commit?_call hi]
    exact c.status_run hx.valid i hr hf hr' hid

/-- A bound subscription has the status in which the last crawl that has ended has left its feed. -/
theorem Reachable.status_play (hx : x.Reachable) (hr : r ∈ x.store.subscriptions)
    (hf : r.feedId = some f) (hproper : ∀ a ∈ actions, a.Proper) (hy : x.play actions = some y)
    (hr' : r' ∈ y.store.subscriptions) (hid : r'.id = r.id) :
    r'.status = (Commit.lastEnd? f (x.commits actions)).elim r.status Status.name := by
  induction actions generalizing x r with
  | nil =>
    obtain rfl := Option.some.inj hy
    rw [hx.sound.valid.eq_of_id hr' hr hid]
    rfl
  | cons a actions ih =>
    obtain ⟨z, hz, hrest⟩ := Option.bind_eq_some_iff.1 hy
    have ha := hproper a List.mem_cons_self
    have hlater : ∀ b ∈ actions, b.Proper := fun b hb => hproper b (List.mem_cons_of_mem a hb)
    have hzReachable : z.Reachable := .step hx ha True.intro hz
    have hextends := hx.sound.extends_act hz
    -- the subscription is there between the steps as well
    obtain ⟨r₁, hr₁, hlives₁⟩ :=
      ((runs_of_play hlater hrest).extends hzReachable.sound).subscription hr'
        ((hid ▸ hx.sound.valid.id_le r hr).trans hextends.lastId_le)
    have hid₁ : r₁.id = r.id := hlives₁.id.trans hid
    have hf₁ : r₁.feedId = some f := (hextends.lives hx.sound.valid hr hr₁ hid₁).feedId f hf
    rw [ih hzReachable hr₁ hf₁ hlater hrest hlives₁.id.symm,
      hx.sound.status_act hr hf hz hr₁ hid₁, commits, hz, Option.elim_some,
      Commit.lastEnd?_append]
    cases Commit.lastEnd? f (z.commits actions) <;> rfl

/-- **Bound subscriptions follow the crawls of their feed.** From when a subscription is bound to a
feed to when it is deleted: once a crawl of the feed has finished or failed it is ready or in error
as the last one that has ended says, whatever has begun since then; until then it is as it was
bound. And only a request to finish or to fail a crawl of the feed changes its status. -/
theorem subscription_follows_crawls (hx : x.Reachable) (hr : r ∈ x.store.subscriptions)
    (hf : r.feedId = some f) :
    (∀ actions y, (∀ a ∈ actions, a.Proper) → x.play actions = some y →
      ∀ r' ∈ y.store.subscriptions, r'.id = r.id → r'.feedId = some f ∧
        (∀ before c after, x.commits actions = before ++ c :: after → c.feed = f →
          c.transition.target ≠ .updating →
          (∀ c' ∈ after, c'.feed = f → c'.transition.target = .updating) →
          r'.status = c.transition.target.name) ∧
        ((∀ c ∈ x.commits actions, c.feed = f → c.transition.target = .updating) →
          r'.status = r.status)) ∧
    ∀ a y, x.act a = some y → ∀ r' ∈ y.store.subscriptions, r'.id = r.id →
      r'.status ≠ r.status → ∃ i request t, a = .call i ∧ x.Next i request (.moveFeed f t) ∧
        r'.status = t.target.name ∧
        (request = .failCrawl f ∨ ∃ update, request = .finishCrawl f update) := by
  refine ⟨fun actions y hproper hy r' hr' hid => ⟨?_, ?_, fun hquiet => ?_⟩,
    fun a y hy r' hr' hid hchanges => ?_⟩
  · exact (((runs_of_play hproper hy).extends hx.sound).lives hx.sound.valid hr hr' hid).feedId f hf
  · intro before c after hsplit hfeed hends hlater
    rw [hx.status_play hr hf hproper hy hr' hid, hsplit,
      Commit.lastEnd?_of_split hfeed hends hlater, Option.elim_some]
  · rw [hx.status_play hr hf hproper hy hr' hid, Commit.lastEnd?_eq_none.2 hquiet,
      Option.elim_none]
  · have hstatus := hx.sound.status_act hr hf hy hr' hid
    cases hcommit : x.commit? a with
    | none => exact absurd (by rw [hstatus, hcommit]; rfl) hchanges
    | some c =>
      rw [hcommit, Option.toList_some, Commit.lastEnd?_singleton] at hstatus
      split at hstatus
      · next hcond =>
        obtain ⟨rfl, hends⟩ := hcond
        obtain ⟨rfl, request, past, next, hi⟩ := next_of_commit? hcommit
        have hcrawl := (hx.sound.running _ (List.mem_of_getElem? hi)).allowed.crawl
        exact ⟨_, request, _, rfl, ⟨past, next, hi⟩, hstatus, request.ends_of_crawl? hcrawl hends⟩
      · exact absurd hstatus hchanges

/-- A user subscribes to an address that is known to lead to a feed. -/
def subscribingToFeed : List Action :=
  [.start (.getOrCreateFeed "http://a.com/rss.xml"), .read 0 .epoch, .call 0,
    .start (.recordMapping "http://a.com/" "http://a.com/rss.xml"), .read 1 .epoch, .call 1,
    .start (.subscribe "http://a.com/" 1), .call 2, .call 2, .call 2, .read 2 .epoch, .call 2]

/-- A crawl of the feed fails, and the next one begins. -/
def failingOnce : List Action :=
  [.start (.beginCrawl 1), .read 3 .epoch, .call 3, .start (.failCrawl 1), .read 4 .epoch, .call 4,
    .start (.beginCrawl 1), .read 5 .epoch, .call 5]

/-- A subscription that was ready is in error while the feed is being crawled again. -/
theorem subscription_follows_crawls_failingOnce : ∃ x y : System, ∃ r r' : SubscriptionRow,
    x.Reachable ∧ r ∈ x.store.subscriptions ∧ r.feedId = some 1 ∧ r.status = Status.ready.name ∧
    x.play failingOnce = some y ∧ r' ∈ y.store.subscriptions ∧ r'.id = r.id ∧
    y.store.feeds.map (·.status) = [Status.updating.name] ∧ r'.status = Status.error.name := by
  have hproper : ∀ a ∈ subscribingToFeed, a.Proper := by
    simp [subscribingToFeed, Action.Proper, Request.Proper]
  have hlater : ∀ a ∈ failingOnce, a.Proper := by
    simp [failingOnce, Action.Proper, Request.Proper]
  have hfirst : (initial.play subscribingToFeed).map (fun x =>
      (x.store.subscriptions.map fun r => (r.id, r.feedId, r.status),
        (x.commits failingOnce).map fun c => (c.feed, c.transition.target))) =
      some ([(1, some 1, "ready")], [(1, .updating), (1, .error), (1, .updating)]) := by
    decide +kernel
  have hsecond : ((initial.play subscribingToFeed).bind (·.play failingOnce)).map (fun y =>
      (y.store.subscriptions.map (·.id), y.store.feeds.map (·.status))) =
      some ([1], ["updating"]) := by decide +kernel
  obtain ⟨x, hx, hxRows⟩ := Option.map_eq_some_iff.1 hfirst
  rw [hx, Option.bind_some] at hsecond
  obtain ⟨y, hy, hyRows⟩ := Option.map_eq_some_iff.1 hsecond
  obtain ⟨hrows, hcommits⟩ := Prod.mk.inj hxRows
  obtain ⟨hids, hstatus⟩ := Prod.mk.inj hyRows
  obtain ⟨r, hr, hrow⟩ := List.mem_map.1 (hrows ▸ List.mem_singleton.2 rfl)
  obtain ⟨r', hr', hid⟩ := List.mem_map.1 (hids ▸ List.mem_singleton.2 rfl)
  simp only [Prod.mk.injEq] at hrow
  obtain ⟨begun, rest, hsplit, -, hrest⟩ := List.map_eq_cons_iff.1 hcommits
  obtain ⟨failed, later, rfl, hfailed, hagain⟩ := List.map_eq_cons_iff.1 hrest
  obtain ⟨hfeed, htarget⟩ := Prod.mk.inj hfailed
  have hreachable : x.Reachable := runs_of_play hproper hx
  obtain ⟨hfollows, -⟩ := subscription_follows_crawls hreachable hr hrow.2.1
  obtain ⟨-, hlast, -⟩ := hfollows failingOnce y hlater hy r' hr' (hid.trans hrow.1.symm)
  refine ⟨x, y, r, r', hreachable, hr, hrow.2.1, hrow.2.2, hy, hr', hid.trans hrow.1.symm, hstatus,
    ?_⟩
  rw [hlast [begun] failed later hsplit hfeed (by simp [htarget]) fun c hc _ => ?_, htarget]
  have hmem : (c.feed, c.transition.target) ∈ [((1 : Int), Status.updating)] :=
    hagain ▸ List.mem_map_of_mem hc
  exact (Prod.mk.inj (List.mem_singleton.1 hmem)).2

end System

end Syndication
