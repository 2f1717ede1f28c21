import Syndication.Proofs.Program.Shared
import Syndication.Proofs.Store.Step
/-!
# Subscriptions are bound once

From when it is inserted to when it is deleted a subscription is bound at most once, by a request to
resolve it, and stays bound; what it says of itself besides stays as it is
(`System.subscription_binds_once`). Of several requests to resolve it the late ones are told so, as
long as instants stay in the years 0 to 9999; a time beyond them cannot be read back, and a request
that has read one ends before it comes to the binding (`System.resolving_beyond_years`).
-/

namespace Syndication

namespace System

variable {x y : System} {a : Action} {i j : Nat} {id : Int} {r : SubscriptionRow}

/-! ## What a step does to a subscription -/

/-- The next step of the request at a place is a call. -/
def Next (x : System) (i : Nat) (request : Request) (c : Call) : Prop :=
  ∃ past next, x.running[i]? = some ⟨request, past, .call c next⟩

/-- What a step does to a subscription: it deletes it, leaves it bound or unbound as it is, or binds
it, which only a request to resolve it does. -/
inductive Affects (x : System) (r : SubscriptionRow) (a : Action) (y : System) : Prop
  | deletes {i : Nat} {request : Request} (ha : a = .call i)
      (hcall : x.Next i request (.deleteSubscription r.id r.user))
  | keeps {r' : SubscriptionRow} (hr' : r' ∈ y.store.subscriptions) (hlives : r.Lives r')
      (hfeed : r'.feedId = r.feedId)
  | binds {r' : SubscriptionRow} {i : Nat} {target : String} {feedId : Int} {status : Status}
      {stamp : String} (hr' : r' ∈ y.store.subscriptions) (hlives : r.Lives r')
      (hunbound : r.feedId = none) (hfeed : r'.feedId = some feedId) (ha : a = .call i)
      (hcall : x.Next i (.resolve r.id target) (.bind r.id feedId status stamp))

theorem Sound.affects (hx : x.Sound) (hr : r ∈ x.store.subscriptions) (hy : x.act a = some y) :
    x.Affects r a y := by
  cases act_eq_some.1 hy with
  | start request => exact .keeps hr (.refl r) rfl
  | read t hi => exact .keeps hr (.refl r) rfl
  | @call i request past c next hi =>
    rcases Call.mem_ids_run c hr with hid | rfl
    · obtain ⟨r', hr', hid⟩ := List.mem_map.1 hid
      have hlives := (Call.extends_run hx.valid c).lives hx.valid hr hr' hid
      rcases Call.feedId_run hx.valid c hr hr' hid with hfeed |
        ⟨feedId, status, stamp, rfl, hunbound, rfl⟩
      · exact .keeps hr' hlives hfeed
      · obtain ⟨target, _, _, rfl, -⟩ := (hx.running _ (List.mem_of_getElem? hi)).allowed
        exact .binds hr' hlives hunbound rfl rfl ⟨past, next, hi⟩
    · exact .deletes rfl ⟨past, next, hi⟩

end System

/-! ## Bindings that have been made -/

/-- The subscription that has been bound. -/
def Event.bound? : Event → Option Int
  | .called (.bind id _ _ _) .bound => some id
  | _ => none

theorem Event.bound?_eq_some {e : Event} {id : Int} : e.bound? = some id ↔
    ∃ feedId status stamp, e = .called (.bind id feedId status stamp) .bound := by
  constructor
  · intro h
    unfold bound? at h
    split at h
    · obtain rfl := Option.some.inj h
      exact ⟨_, _, _, rfl⟩
    · cases h
  · rintro ⟨feedId, status, stamp, rfl⟩
    rfl

namespace System

variable {x y : System} {a : Action} {i j : Nat} {id : Int} {r : SubscriptionRow}

/-- The request at a place has bound a subscription. -/
def HasBound (x : System) (i : Nat) (id : Int) : Prop :=
  ∃ running ∈ x.running[i]?, ∃ e ∈ running.past, e.bound? = some id

instance : Decidable (x.HasBound i id) :=
  inferInstanceAs (Decidable (∃ running ∈ x.running[i]?, ∃ e ∈ running.past, e.bound? = some id))

/-- A binding has been made before the step or by it. -/
theorem HasBound.of_act (hy : x.act a = some y) (h : y.HasBound i id) :
    x.HasBound i id ∨ a = .call i ∧ ∃ feedId status stamp,
      (Call.runBind id feedId status stamp x.store).1 = .bound ∧
        y.store = (Call.runBind id feedId status stamp x.store).2 := by
  obtain ⟨⟨request, past, rest⟩, hi, e, he, hid⟩ := h
  rcases running_act_cases hy hi with hsame | ⟨-, rfl, -⟩ |
    ⟨earlier, c, next, rfl, hj, hstore, rfl, -⟩ | ⟨earlier, t, next, rfl, hj, rfl, -⟩
  · exact .inl ⟨_, hsame, e, he, hid⟩
  · cases he
  · rcases List.mem_append.1 he with he | he
    · exact .inl ⟨_, hj, e, he, hid⟩
    · obtain ⟨feedId, status, stamp, rfl⟩ := Event.bound?_eq_some.1 hid
      obtain ⟨rfl, hanswer⟩ := Event.called.inj (List.mem_singleton.1 he)
      exact .inr ⟨rfl, feedId, status, stamp, (eq_of_heq hanswer).symm, hstore⟩
  · rcases List.mem_append.1 he with he | he
    · exact .inl ⟨_, hj, e, he, hid⟩
    · obtain rfl := List.mem_singleton.1 he
      cases hid

/-- What has been bound is not unbound any more, and only one request has bound it. -/
structure BoundOnce (x : System) : Prop where
  counted : ∀ i id, x.HasBound i id → id ≤ x.store.lastSubscriptionId
  bound : ∀ i id, x.HasBound i id → ∀ r ∈ x.store.subscriptions, r.id = id → r.feedId ≠ none
  place : ∀ i j id, x.HasBound i id → x.HasBound j id → i = j

theorem boundOnce_initial : initial.BoundOnce := by
  have hnone (i : Nat) (id : Int) : ¬ initial.HasBound i id := by
    rintro ⟨_, hi, -⟩
    cases hi
  exact ⟨fun i id h => absurd h (hnone i id), fun i id h => absurd h (hnone i id),
    fun i j id h => absurd h (hnone i id)⟩

theorem BoundOnce.act (h : x.BoundOnce) (hx : x.Sound) (hy : x.act a = some y) : y.BoundOnce := by
  have hextends := hx.extends_act hy
  -- a request that has just bound the subscription has found it unbound
  have fresh {id feedId : Int} {status : Status} {stamp : String}
      (hbound : (Call.runBind id feedId status stamp x.store).1 = .bound) :
      ∃ r ∈ x.store.subscriptions, r.id = id ∧ r.feedId = none := by
    rcases Call.runBind_cases id feedId status stamp x.store with ⟨hnot, -⟩ | ⟨r, hr, hunbound, -⟩
    · exact absurd hbound hnot
    · exact ⟨r, (Store.mem_of_subscription? hr).1, (Store.mem_of_subscription? hr).2, hunbound⟩
  have unmade {i : Nat} {id feedId : Int} {status : Status} {stamp : String}
      (hbound : (Call.runBind id feedId status stamp x.store).1 = .bound) : ¬ x.HasBound i id := by
    obtain ⟨r, hr, hid, hunbound⟩ := fresh hbound
    exact fun hi => h.bound i id hi r hr hid hunbound
  refine ⟨fun i id hi => ?_, fun i id hi r' hr' hid => ?_, fun i j id hi hj => ?_⟩
  · rcases hi.of_act hy with hi | ⟨-, feedId, status, stamp, hbound, -⟩
    · exact Int.le_trans (h.counted i id hi) hextends.lastId_le
    · obtain ⟨r, hr, rfl, -⟩ := fresh hbound
      exact Int.le_trans (hx.valid.id_le r hr) hextends.lastId_le
  · rcases hi.of_act hy with hi | ⟨-, feedId, status, stamp, hbound, hstore⟩
    · obtain ⟨r, hr, hlives⟩ := hextends.subscription hr' (hid ▸ h.counted i id hi)
      obtain ⟨f, hf⟩ := Option.ne_none_iff_exists'.1 (h.bound i id hi r hr (hlives.id.trans hid))
      rw [hlives.feedId f hf]
      simp
    · rcases Call.runBind_cases id feedId status stamp x.store with ⟨hnot, -⟩ | ⟨r, -, -, -, hrun⟩
      · exact absurd hbound hnot
      · rw [hstore, hrun] at hr'
        obtain ⟨r₀, -, rfl⟩ := List.mem_map.1 hr'
        split at hid
        · next hsame => simp [hsame, SubscriptionRow.boundTo]
        · next hother => exact absurd hid hother
  · rcases hi.of_act hy with hi' | ⟨rfl, _, _, _, hbound, -⟩ <;>
      rcases hj.of_act hy with hj' | ⟨hplace, _, _, _, hbound', -⟩
    · exact h.place i j id hi' hj'
    · exact absurd hi' (unmade hbound')
    · exact absurd hj' (unmade hbound)
    · exact Action.call.inj hplace

theorem Reachable.boundOnce (hx : x.Reachable) : x.BoundOnce := by
  induction hx with
  | refl => exact boundOnce_initial
  | step h _ _ hz ih => exact ih.act (Reachable.sound h) hz

end System

/-! ## How resolving goes on -/

/-- The calls by which a subscription is resolved. -/
inductive Call.Resolves (id : Int) (target : String) : Call → Prop
  | find (owner : Option Int) : Resolves id target (.findSubscription id owner)
  | record (source stamp : String) : Resolves id target (.addMapping source target stamp)
  | feed (stamp : String) : Resolves id target (.ensureFeed target stamp)
  | bind (feedId : Int) (status : Status) (stamp : String) :
      Resolves id target (.bind id feedId status stamp)

/-- To resolve a subscription changes no subscription, except to bind that one. -/
theorem Call.Resolves.subscriptions_run {id : Int} {target : String} {c : Call}
    (h : c.Resolves id target) (s : Store) : (c.run s).2.subscriptions = s.subscriptions ∨
      ∃ feedId status stamp, c = .bind id feedId status stamp ∧ HEq (c.run s).1 Bound.bound := by
  cases h with
  | find owner => exact .inl rfl
  | record source stamp => exact .inl rfl
  | feed stamp => exact .inl (Store.subscriptions_ensureFeed target stamp s)
  | bind feedId status stamp =>
    rcases runBind_cases id feedId status stamp s with ⟨-, hs⟩ | ⟨_, -, -, -, hs⟩
    · exact .inl (congrArg Store.subscriptions hs)
    · exact .inr ⟨feedId, status, stamp, rfl, heq_of_eq (congrArg Prod.fst hs)⟩

namespace Store

open Operation

theorem ensures_calls_resolve (id : Int) (target : String) (past : List Event) :
    (resolve id target).Ensures .recorded (fun _ c => c.Resolves id target) (fun _ _ => True)
      past := by
  refine ensures_resolve.2 ⟨.find none, fun found _ _ => ?_⟩
  cases found.elim (.error (.subscriptionNotFound id)) (SubscriptionRow.load false) with
  | error e => exact True.intro
  | ok a =>
    dsimp only
    split
    · exact True.intro
    refine ensures_resolveUnbound.2 fun t₁ _ _ => ⟨.record _ _, fun m _ _ => ?_⟩
    cases MappingRow.load ⟨m, a.url, target, t₁.truncate.stamp⟩ with
    | error e => exact True.intro
    | ok mapping =>
      refine fun t₂ _ _ => ⟨.feed _, fun row _ _ => ?_⟩
      cases FeedRow.load true row with
      | error e => exact True.intro
      | ok feed =>
        intro t₃ _ _
        cases Instant.advance? a.updatedAt t₃.truncate with
        | none => exact True.intro
        | some next =>
          refine ⟨.bind _ _ _, fun outcome _ _ => ?_⟩
          cases outcome with
          | bound => exact ensures_findSubscription.2 ⟨.find _, fun _ _ _ => True.intro⟩
          | stale => exact True.intro
          | duplicate => exact True.intro

/-- What resolving a subscription ends with, having seen what it has: when it has found the
subscription unbound, it has bound it, or it is told that others have, or that the user has a
subscription to the feed. -/
def ResolveEndsAmong {α : Type} (id : Int) (past : List Event) (r : Except StoreError α) : Prop :=
  ∀ row, past.head? = some (.called (.findSubscription id none) (some row)) →
    row.1.feedId = none →
    (∃ e ∈ past, e.bound? = some id) ∨ r = .error (.alreadyBound id) ∨
      ∃ f, r = .error (.duplicateSubscription row.1.user f)

/-- **Resolving among others** ends in no other way as long as instants stay in the years 0 to
9999, because then all that it reads and writes can be loaded. -/
theorem ensures_resolve_among (s : Store) (id : Int) (target : String) :
    (resolve id target).Ensures .shared (fun _ _ => True)
      (fun x r => ResolveEndsAmong id x.2 r) (s, []) := by
  refine ensures_resolve.2 ⟨True.intro, ?_⟩
  rintro found _ ⟨s₁, -, hvalid₁, hyears₁, -, -, hfound, rfl⟩
  rcases found with _ | row
  · intro row hhead
    cases hhead
  obtain ⟨r, hr, rfl, rfl⟩ := exists_of_runFindSubscription hfound
  obtain ⟨a, hload⟩ := hvalid₁.subscription_loads hyears₁ false hr
  have ha := SubscriptionRow.load_eq_ok.1 hload
  -- what is found first is this row
  have same {past : List Event} {row : SubscriptionRow × Option FeedRow}
      (hpast : past.head? =
        some (.called (.findSubscription r.id none) (some (s₁.withFeed r))))
      (hrow : past.head? = some (.called (.findSubscription r.id none) (some row))) :
      row = s₁.withFeed r := by
    obtain ⟨-, hsame⟩ := Event.called.inj (Option.some.inj (hrow.symm.trans hpast))
    exact Option.some.inj (eq_of_heq hsame)
  rw [Option.elim_some, hload]
  dsimp only
  split
  · next hbound =>
    intro row hrow hfree
    obtain rfl := same rfl hrow
    rw [Subscription.isBound, ha.feedId, hfree] at hbound
    cases hbound
  refine ensures_resolveUnbound.2 ?_
  rintro t₁ _ rfl
  refine ⟨True.intro, ?_⟩
  -- what a stamp looks like plays no part
  generalize t₁.truncate.stamp = stamp₁
  rintro m _ ⟨s₂, -, -, -, hvalid₂, hyears₂, rfl, rfl⟩
  obtain ⟨mapping, hmapping⟩ := hvalid₂.mapping_loads hyears₂
    (m := ⟨((Call.addMapping a.url target stamp₁).run s₂).1, a.url, target, stamp₁⟩)
    (List.mem_append_right _ List.mem_cons_self)
  rw [hmapping]
  rintro t₂ _ rfl
  refine ⟨True.intro, ?_⟩
  generalize t₂.truncate.stamp = stamp₂
  rintro _ _ ⟨s₃, -, -, -, hvalid₃, hyears₃, rfl, rfl⟩
  obtain ⟨feed, hfeed⟩ := hvalid₃.feed_loads hyears₃ true (mem_feeds_ensureFeed target stamp₂ s₃)
  rw [show FeedRow.load true ((Call.ensureFeed target stamp₂).run s₃).1 = .ok feed from hfeed]
  rintro t₃ _ rfl
  obtain ⟨next, hnext⟩ :=
    Stamp.exists_advance? (hvalid₁.written_updatedAt hr) ha.updatedAt t₃.truncate
  rw [hnext]
  refine ⟨True.intro, ?_⟩
  rintro outcome _ ⟨s₄, -, -, -, -, -, houtcome, rfl⟩
  cases outcome with
  | bound =>
    refine ensures_findSubscription.2 ⟨True.intro, ?_⟩
    rintro found _ ⟨s₅, -, -, -, -, -, -, rfl⟩ row hrow -
    exact .inl ⟨.called (.bind r.id feed.id feed.status next.stamp) .bound, by simp, rfl⟩
  | stale => exact fun row hrow _ => .inr (.inl rfl)
  | duplicate =>
    intro row hrow _
    obtain rfl := same rfl hrow
    exact .inr (.inr ⟨feed.id, by rw [ha.user]⟩)

end Store

namespace System

/-! ## The life of a subscription -/

variable {x y : System} {i : Nat} {id : Int} {target : String}

/-- A request to resolve a subscription changes no subscription, except to bind that one. -/
theorem Sound.subscriptions_resolve (hx : x.Sound) {c : Call}
    (hnext : x.Next i (.resolve id target) c) (hy : x.act (.call i) = some y) :
    y.store.subscriptions = x.store.subscriptions ∨ y.HasBound i id := by
  obtain ⟨past, next, hi⟩ := hnext
  have hop : (Request.resolve id target).operation.Ensures .recorded
      (fun _ c => c.Resolves id target) (fun _ _ => True) [] :=
    Operation.ensures_map.2 (Store.ensures_calls_resolve id target [])
  have hresolves := ((hx.running _ (List.mem_of_getElem? hi)).leads.ensures hop).1
  cases act_eq_some.1 hy with
  | call hj =>
    obtain ⟨rfl, rfl, hcall⟩ := Running.mk.inj (Option.some.inj (hi.symm.trans hj))
    obtain ⟨rfl, -⟩ := Program.call.inj hcall
    rcases hresolves.subscriptions_run x.store with hsame | ⟨feedId, status, stamp, rfl, hanswer⟩
    · exact .inl hsame
    · refine .inr ⟨_, List.getElem?_set_self (List.getElem?_eq_some_iff.1 hi).1, _,
        List.mem_append_right _ List.mem_cons_self, ?_⟩
      rw [eq_of_heq hanswer]
      rfl

/-- Who sees a subscription by default sees it until it is deleted. -/
theorem Affects.visible {a : Action} {user : Int} {r : SubscriptionRow}
    (hr : r ∈ x.store.visible user false) (h : x.Affects r a y) :
    (∃ r' ∈ y.store.visible user false, r'.id = r.id) ∨
      ∃ i request, a = .call i ∧ x.Next i request (.deleteSubscription r.id user) := by
  obtain ⟨-, huser, hshown⟩ := Store.mem_visible.1 hr
  have hshown := hshown.resolve_left (by simp)
  have stays {r' : SubscriptionRow} (hr' : r' ∈ y.store.subscriptions) (hlives : r.Lives r') :
      ∃ r' ∈ y.store.visible user false, r'.id = r.id :=
    ⟨r', Store.mem_visible.2 ⟨hr', hlives.user.symm.trans huser, .inr (hlives.shown hshown)⟩,
      hlives.id.symm⟩
  cases h with
  | deletes ha hcall => exact .inr ⟨_, _, ha, huser ▸ hcall⟩
  | keeps hr' hlives => exact .inl (stays hr' hlives)
  | binds hr' hlives => exact .inl (stays hr' hlives)

/-- **A subscription is bound once and stays bound.** In every run: a subscription keeps whose it
is, its address, its title, when it was created and, once it has one, its feed, and it stays
visible; a step that does not delete it leaves its feed as it is or is the binding by a request to
resolve it; no two requests bind one subscription, and a request to resolve it that does not bind it
changes no subscription. As long as instants stay in the years 0 to 9999 such a request, when it has
found the subscription unbound, is told that the subscription is bound or that the user has a
subscription to the feed. -/
theorem subscription_binds_once (hx : x.Reachable) :
    (∀ y, x.Runs (fun _ _ => True) y → ∀ r ∈ x.store.subscriptions,
      ∀ r' ∈ y.store.subscriptions, r'.id = r.id → r.Lives r') ∧
    (∀ a y, x.act a = some y → ∀ r ∈ x.store.subscriptions, x.Affects r a y) ∧
    (∀ a y, x.act a = some y → ∀ user, ∀ r ∈ x.store.visible user false,
      (∃ r' ∈ y.store.visible user false, r'.id = r.id) ∨
        ∃ i request, a = .call i ∧ x.Next i request (.deleteSubscription r.id user)) ∧
    (∀ id i j, x.HasBound i id → x.HasBound j id → i = j) ∧
    (∀ id target i c y, x.Next i (.resolve id target) c → x.act (.call i) = some y →
      y.store.subscriptions = x.store.subscriptions ∨ y.HasBound i id) ∧
    (x.ReachableInYears → ∀ id target i past r,
      x.running[i]? = some ⟨.resolve id target, past, .done r⟩ → ∀ row,
      past.head? = some (.called (.findSubscription id none) (some row)) → row.1.feedId = none →
      x.HasBound i id ∨ r = .error (.alreadyBound id) ∨
        ∃ f, r = .error (.duplicateSubscription row.1.user f)) := by
  have hsound := hx.sound
  refine ⟨fun y hy r hr r' hr' hid => (hy.extends hsound).lives hsound.valid hr hr' hid,
    fun a y hy r hr => hsound.affects hr hy, fun a y hy user r hr => ?_, fun id i j =>
    hx.boundOnce.place i j id, fun id target i c y hnext hy =>
    hsound.subscriptions_resolve hnext hy, fun hyears id target i past r hi row hrow hfree => ?_⟩
  · exact (hsound.affects (Store.mem_visible.1 hr).1 hy).visible hr
  · have hop (s : Store) (_ : s.Valid) (_ : s.InYears) :
        (Request.resolve id target).operation.Ensures .shared (fun _ _ => True)
          (fun x r => Store.ResolveEndsAmong id x.2 r) (s, []) := by
      refine Operation.ensures_map.2 ((Store.ensures_resolve_among s id target).mono
        (fun _ _ h => h) fun x r hends row hrow hfree => ?_)
      refine (hends row hrow hfree).imp_right (Or.imp ?_ ?_)
      · rintro rfl
        rfl
      · rintro ⟨f, rfl⟩
        exact ⟨f, rfl⟩
    obtain ⟨s, -, hends⟩ := hyears.ensures hop hi
    exact (hends row hrow hfree).imp_left fun hbound => ⟨_, hi, hbound⟩

/-- How a request to resolve a subscription has failed that had found it unbound. -/
def resolveError? (x : System) (i : Nat) : Option (Int × StoreError) :=
  match x.running[i]? with
  | some ⟨.resolve id _, .called (.findSubscription id' none) (some row) :: _, .done (.error e)⟩ =>
    if id' = id ∧ row.1.feedId = none then some (id, e) else none
  | _ => none

theorem resolveError?_eq_some {e : StoreError} (h : x.resolveError? i = some (id, e)) :
    ∃ target past row, x.running[i]? = some ⟨.resolve id target, past, .done (.error e)⟩ ∧
      past.head? = some (.called (.findSubscription id none) (some row)) ∧ row.1.feedId = none := by
  unfold resolveError? at h
  split at h
  · next hi =>
    obtain ⟨⟨rfl, hfree⟩, h⟩ := Option.ite_none_right_eq_some.1 h
    cases h
    exact ⟨_, _, _, hi, rfl, hfree⟩
  · cases h

/-- Two requests to resolve a subscription to different targets find it unbound, and one after the
other they go on; the second one reads `time` when it records the target. -/
def resolvingTwice (time : Instant) : List Action :=
  [.start (.subscribe "http://a.com/" 1), .call 0, .read 0 .epoch, .call 0, .call 0,
    .start (.resolve 1 "http://a.com/rss.xml"), .start (.resolve 1 "http://a.com/atom.xml"),
    .call 1, .call 2,
    .read 1 .epoch, .call 1, .read 1 .epoch, .call 1, .read 1 .epoch, .call 1, .call 1,
    .read 2 time, .call 2]

theorem proper_resolvingTwice (time : Instant) : ∀ a ∈ resolvingTwice time, a.Proper := by
  simp [resolvingTwice, Action.Proper, Request.Proper]

/-- The second of two requests comes too late. -/
theorem subscription_binds_once_resolvingTwice : ∃ x : System, x.Reachable ∧
    x.ReachableInYears ∧ x.HasBound 1 1 ∧ ¬ x.HasBound 2 1 ∧
    x.resolveError? 2 = some (1, .alreadyBound 1) ∧ ∀ i, x.HasBound i 1 → i = 1 := by
  let later : List Action := [.read 2 .epoch, .call 2, .read 2 .epoch, .call 2]
  have hproper : ∀ a ∈ resolvingTwice .epoch ++ later, a.Proper := by
    simp [resolvingTwice, later, Action.Proper, Request.Proper]
  have hplay : (initial.play (resolvingTwice .epoch ++ later)).map (fun x =>
      (decide (x.HasBound 1 1), decide (x.HasBound 2 1), x.resolveError? 2)) =
        some (true, false, some (1, .alreadyBound 1)) := by decide +kernel
  obtain ⟨x, hx, hends⟩ := Option.map_eq_some_iff.1 hplay
  obtain ⟨hfirst, hsecond, herror⟩ : decide (x.HasBound 1 1) = true ∧
      decide (x.HasBound 2 1) = false ∧ x.resolveError? 2 = some (1, .alreadyBound 1) := by
    simpa using hends
  have hyears : x.ReachableInYears :=
    reachableInYears_of_play hproper hx (by decide +kernel)
  obtain ⟨-, -, -, hplace, -, -⟩ := subscription_binds_once hyears.reachable
  have hbound := of_decide_eq_true hfirst
  exact ⟨x, hyears.reachable, hyears, hbound, of_decide_eq_false hsecond, herror,
    fun i hi => hplace 1 i 1 hi hbound⟩

/-- When the time that the second of two requests reads is after the year 9999 it is not told that
the subscription is bound. -/
theorem resolving_beyond_years : ∃ x : System, ∃ target past row fault, x.Reachable ∧
    x.HasBound 1 1 ∧ ¬ x.HasBound 2 1 ∧
    x.running[2]? = some ⟨.resolve 1 target, past, .done (.error (.badStamp fault))⟩ ∧
    past.head? = some (.called (.findSubscription 1 none) (some row)) ∧ row.1.feedId = none := by
  have hplay : (initial.play (resolvingTwice afterYears)).map (fun x =>
      (decide (x.HasBound 1 1), decide (x.HasBound 2 1), x.resolveError? 2)) =
        some (true, false, some (1, .badStamp .invalid)) := by decide +kernel
  obtain ⟨x, hx, hends⟩ := Option.map_eq_some_iff.1 hplay
  obtain ⟨hfirst, hsecond, herror⟩ : decide (x.HasBound 1 1) = true ∧
      decide (x.HasBound 2 1) = false ∧ x.resolveError? 2 = some (1, .badStamp .invalid) := by
    simpa using hends
  obtain ⟨target, past, row, hi, hhead, hfree⟩ := resolveError?_eq_some herror
  exact ⟨x, target, past, row, _, runs_of_play (proper_resolvingTwice afterYears) hx,
    of_decide_eq_true hfirst, of_decide_eq_false hsecond, hi, hhead, hfree⟩

end System

end Syndication
