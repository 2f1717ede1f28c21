import Syndication.Proofs.Program.System
/-!
# Clocks of subscriptions

Clients see by its clock that a subscription has changed. A step of a system changes a subscription
only with its clock moving on, save one kind of step: a binding writes the clock that follows the
one its request saw at first, and other requests may have moved the clock past that in between.
`System.Lags` is when it is so, and `System.clock_step` that there is no other case;
`System.clock_goes_back` is a run in which a clock goes back.
-/

namespace Syndication

/-- A step that binds a subscription with a clock not later than the one that it has. The request
has seen the clock `seen` and then the time `t`, which is not past the clock `current` of now; what
it writes is `t`, or it is the tick after `seen` and that is not past `current` either. -/
inductive System.Lags (x : System) : Action → SubscriptionRow → Prop
  | bind {i : Nat} {target stamp : String} {feedId : Int} {status : Status} {past : List Event}
      {rest : Bound → Program (Except StoreError Reply)} {r r₀ : SubscriptionRow}
      {f : Option FeedRow} {seen t current : Instant}
      (running : x.running[i]? =
        some ⟨.resolve r.id target, past, .call (.bind r.id feedId status stamp) rest⟩)
      (unbound : r.feedId = none) (free : x.store.holder? r.user feedId = none)
      (first : past.head? = some (.called (.findSubscription r.id none) (some (r₀, f))))
      (clock : Stamp.decode r₀.updatedAt = .ok seen) (last : past.getLast? = some (.read t))
      (holds : Stamp.Holds r.updatedAt current) (time : t.truncate ≤ current)
      (ticks : seen < t.truncate ∨ ∀ next, seen.tick? = some next → next ≤ current) :
      Lags x (.call i) r

/-- What follows a clock at a time is past another clock. -/
theorem Instant.not_lt_advance?_iff {seen now current next : Instant}
    (h : advance? seen now = some next) :
    ¬ current < next ↔
      now ≤ current ∧ (seen < now ∨ ∀ u, seen.tick? = some u → u ≤ current) := by
  rw [lt_advance?_iff h, not_or]
  refine and_congr Iff.rfl ?_
  constructor
  · intro hticks
    by_cases hnow : seen < now
    · exact .inl hnow
    · exact .inr fun u hu hlt => hticks ⟨hnow, u, hu, hlt⟩
  · rintro (hnow | hticks) ⟨hle, u, hu, hlt⟩
    · exact hle hnow
    · exact hticks u hu hlt

namespace Request.Resolves

variable {id : Int} {target : String} {row : FeedRow} {next : Instant} {past : List Event}

/-- The clock that a binding writes follows the first one seen at the last time read. -/
theorem clock (h : Resolves id target row next past) :
    ∃ r f seen t, past.head? = some (.called (.findSubscription id none) (some (r, f))) ∧
      Stamp.decode r.updatedAt = .ok seen ∧ past.getLast? = some (.read t) ∧
        Instant.advance? seen t.truncate = some next := by
  cases h with
  | @seen r f a m t₁ t₂ t₃ unbound loads ticks =>
    exact ⟨r, f, a.updatedAt, t₃, rfl, (SubscriptionRow.load_eq_ok.1 loads).updatedAt, rfl, ticks⟩

end Request.Resolves

/-- A subscription that has been found has a proper clock. -/
theorem Event.Held.written_updatedAt {s : Store} {id : Int} {owner : Option Int}
    {r : SubscriptionRow} {f : Option FeedRow}
    (h : (Event.called (.findSubscription id owner) (some (r, f))).Held s) :
    Stamp.IsWritten r.updatedAt := by
  obtain ⟨s₀, hvalid, hfound, -⟩ := h
  obtain ⟨r', hr', -, hview⟩ := Store.exists_of_runFindSubscription hfound.symm
  obtain rfl : r' = r := congrArg Prod.fst hview
  exact hvalid.written_updatedAt hr'

namespace System

variable {x y : System} {a : Action} {r r' : SubscriptionRow}

/-- A binding of a sound request writes a clock that is not later if it lags, and only then. -/
theorem Sound.lags_iff (hx : x.Sound) {i : Nat} {request : Request} {past : List Event}
    {feedId : Int} {status : Status} {stamp : String}
    {rest : Bound → Program (Except StoreError Reply)}
    (hi : x.running[i]? = some ⟨request, past, .call (.bind r.id feedId status stamp) rest⟩)
    (hr : r ∈ x.store.subscriptions) (hunbound : r.feedId = none)
    (hfree : x.store.holder? r.user feedId = none) :
    x.Lags (.call i) r ↔ ¬ Stamp.Before r.updatedAt stamp := by
  have hsound := hx.running _ (List.mem_of_getElem? hi)
  obtain ⟨target, row, next, rfl, hseen, rfl, -, rfl⟩ := hsound.allowed
  obtain ⟨r₀, f, seen, t, hfirst, hclock, hlast, hnext⟩ := hseen.clock
  obtain ⟨current, hcurrent⟩ := hx.valid.written_updatedAt hr
  have hwhole : next.IsWhole := by
    have hwritten := (hsound.held _ (List.mem_of_mem_head? hfirst)).written_updatedAt
    exact Instant.isWhole_of_advance? (Stamp.Holds.of_decode hwritten hclock).1
      t.isWhole_truncate hnext
  have hbefore : ¬ Stamp.Before r.updatedAt next.stamp ↔
      t.truncate ≤ current ∧ (seen < t.truncate ∨ ∀ u, seen.tick? = some u → u ≤ current) := by
    rw [Stamp.Before.iff_lt hcurrent ⟨hwhole, rfl⟩, Instant.not_lt_advance?_iff hnext]
  rw [hbefore]
  constructor
  · intro hlags
    cases hlags with
    | bind running _ _ first clock last holds time ticks =>
      have heq := Option.some.inj (hi.symm.trans running)
      simp only [Running.mk.injEq, Request.resolve.injEq, true_and] at heq
      obtain ⟨rfl, rfl, -⟩ := heq
      -- both sides tell of one past, so of one clock seen and one time read
      have hfound := hfirst.symm.trans first
      simp only [Option.some.injEq, Event.called.injEq, true_and, heq_eq_eq,
        Prod.mk.injEq] at hfound
      obtain ⟨rfl, rfl⟩ := hfound
      have hread := hlast.symm.trans last
      simp only [Option.some.injEq, Event.read.injEq] at hread
      obtain rfl := hread
      obtain rfl := Except.ok.inj (hclock.symm.trans clock)
      obtain rfl := hcurrent.unique holds
      exact ⟨time, ticks⟩
  · rintro ⟨htime, hticks⟩
    exact .bind hi hunbound hfree hfirst hclock hlast hcurrent htime hticks

/-- What a binding makes of the subscription that it binds. -/
theorem Sound.eq_boundTo (hx : x.Sound) {feedId : Int} {status : Status} {stamp : String}
    (hr : r ∈ x.store.subscriptions) (hunbound : r.feedId = none)
    (hfree : x.store.holder? r.user feedId = none)
    (hr' : r' ∈ ((Call.bind r.id feedId status stamp).run x.store).2.subscriptions)
    (hid : r'.id = r.id) : r' = r.boundTo feedId status stamp := by
  have hfound := hx.valid.subscription?_eq_some.2 ⟨hr, rfl⟩
  rw [Call.run, Call.runBind_eq hfound hunbound hfree] at hr'
  obtain ⟨r₁, hr₁, rfl⟩ := List.mem_map.1 hr'
  split at hid
  · next hid₁ =>
    obtain rfl := hx.valid.eq_of_id hr₁ hr hid₁
    rw [if_pos rfl]
  · next hid₁ => exact absurd hid hid₁

/-- A binding lags only if another request has moved the clock since its request saw it. -/
theorem Lags.moved (hx : x.Reachable) (h : x.Lags a r) (hr : r ∈ x.store.subscriptions) :
    ∃ i run r₀ f, a = .call i ∧ x.running[i]? = some run ∧
      run.past.head? = some (.called (.findSubscription r.id none) (some (r₀, f))) ∧
        r₀.updatedAt ≠ r.updatedAt := by
  have hsound := hx.sound
  cases id h with
  | @bind i target stamp feedId status past rest _ r₀ f _ _ _ hi hunbound hfree hfirst _ _ _ _ _ =>
    refine ⟨i, _, r₀, f, rfl, hi, hfirst, fun heq => ?_⟩
    refine (hsound.lags_iff hi hr hunbound hfree).1 h ?_
    have hrunning := hsound.running _ (List.mem_of_getElem? hi)
    obtain ⟨_, _, next, -, hseen, -, -, rfl⟩ := hrunning.allowed
    obtain ⟨r₁, f₁, seen, t, hfirst₁, hclock, -, hnext⟩ := hseen.clock
    have hfound := hfirst₁.symm.trans hfirst
    simp only [Option.some.injEq, Event.called.injEq, true_and, heq_eq_eq, Prod.mk.injEq] at hfound
    obtain ⟨rfl, -⟩ := hfound
    have hwritten := (hrunning.held _ (List.mem_of_mem_head? hfirst)).written_updatedAt
    rw [← heq, ← (Stamp.Holds.of_decode hwritten hclock).2]
    exact .of_advance? t.isWhole_truncate hnext

/-! ## A binding that is overtaken -/

/-- A subscription is being resolved, its feed has been created and the time has been read; then its
user sets the offset twice. The clock stands still. -/
def resolvingOvertaken : List Action :=
  [.start (.subscribe "http://a.com/" 1), .call 0, .read 0 .epoch, .call 0, .call 0,
    .start (.resolve 1 "http://a.com/rss.xml"), .call 1, .read 1 .epoch, .call 1, .read 1 .epoch,
    .call 1, .read 1 .epoch,
    .start (.setOffset 1 1 5), .call 2, .read 2 .epoch, .call 2,
    .start (.setOffset 1 1 6), .call 3, .read 3 .epoch, .call 3]

theorem proper_resolvingOvertaken : ∀ a ∈ resolvingOvertaken, a.Proper := by
  simp [resolvingOvertaken, Action.Proper, Request.Proper]

/-- The subscription as its user has left it, and as the binding leaves it. -/
theorem bind_resolvingOvertaken : ∃ x y : System, ∃ r r' : SubscriptionRow, x.Reachable ∧
    x.act (.call 1) = some y ∧ r ∈ x.store.subscriptions ∧ r' ∈ y.store.subscriptions ∧
    r = ⟨1, 1, none, "pending", "http://a.com/", none, 6, "1970-01-01T00:00:00.000000Z",
      "1970-01-01T00:00:00.000002Z"⟩ ∧
    r' = ⟨1, 1, some 1, "pending", "http://a.com/", none, 6, "1970-01-01T00:00:00.000000Z",
      "1970-01-01T00:00:00.000001Z"⟩ := by
  let feed : FeedRow := Call.newFeed 1 "http://a.com/rss.xml" "1970-01-01T00:00:00.000000Z"
  let mapping : MappingRow :=
    ⟨1, "http://a.com/", "http://a.com/rss.xml", "1970-01-01T00:00:00.000000Z"⟩
  let before : SubscriptionRow := ⟨1, 1, none, "pending", "http://a.com/", none, 6,
    "1970-01-01T00:00:00.000000Z", "1970-01-01T00:00:00.000002Z"⟩
  let after : SubscriptionRow := ⟨1, 1, some 1, "pending", "http://a.com/", none, 6,
    "1970-01-01T00:00:00.000000Z", "1970-01-01T00:00:00.000001Z"⟩
  have hbefore : (initial.play resolvingOvertaken).map (·.store) =
      some ⟨[feed], [], [mapping], [before], 1⟩ := by decide +kernel
  have hafter : ((initial.play resolvingOvertaken).bind (·.act (.call 1))).map (·.store) =
      some ⟨[feed], [], [mapping], [after], 1⟩ := by decide +kernel
  obtain ⟨x, y, hx, hy, hs, ht⟩ := exists_act_of_play proper_resolvingOvertaken hbefore hafter
  exact ⟨x, y, before, after, hx, hy, hs ▸ List.mem_cons_self, ht ▸ List.mem_cons_self, rfl, rfl⟩

/-! ## The law of clocks -/

/-- **Clocks move on, save where a binding lags**: a step leaves a subscription as it is or gives it
a later clock if and only if the step does not lag. -/
theorem clock_step (hx : x.Reachable) (hy : x.act a = some y) (hr : r ∈ x.store.subscriptions)
    (hr' : r' ∈ y.store.subscriptions) (hid : r'.id = r.id) :
    (r' = r ∨ Stamp.Before r.updatedAt r'.updatedAt) ↔ ¬ x.Lags a r := by
  have hsound := hx.sound
  cases act_eq_some.1 hy with
  | start request =>
    refine ⟨fun _ hlags => ?_, fun _ => .inl (hsound.valid.eq_of_id hr' hr hid)⟩
    cases hlags
  | read t hi =>
    refine ⟨fun _ hlags => ?_, fun _ => .inl (hsound.valid.eq_of_id hr' hr hid)⟩
    cases hlags
  | @call i request past c next hi =>
    by_cases hbinds : ∃ feedId status stamp, c = .bind r.id feedId status stamp ∧
        r.feedId = none ∧ x.store.holder? r.user feedId = none
    · obtain ⟨feedId, status, stamp, rfl, hunbound, hfree⟩ := hbinds
      obtain rfl := hsound.eq_boundTo hr hunbound hfree hr' hid
      rw [hsound.lags_iff hi hr hunbound hfree, not_not]
      refine ⟨fun h => h.resolve_left fun heq => ?_, .inr⟩
      have : r.feedId = some feedId := congrArg SubscriptionRow.feedId heq.symm
      rw [hunbound] at this
      cases this
    · have hallowed := (hsound.running _ (List.mem_of_getElem? hi)).allowed
      refine ⟨fun _ hlags => hbinds ?_, fun _ => ?_⟩
      · cases hlags with
        | bind running unbound free _ _ _ _ _ _ =>
          have heq := Option.some.inj (hi.symm.trans running)
          simp only [Running.mk.injEq, Program.call.injEq] at heq
          exact ⟨_, _, _, heq.2.2.1, unbound, free⟩
      · rcases Call.view_run hsound.valid hallowed.proper hr hr' hid with hview | hbefore | hbound
        · exact .inl (congrArg Prod.fst hview)
        · exact .inr hbefore
        · obtain ⟨feedId, status, stamp, hc, hunbound, hfree, -⟩ := hbound
          exact absurd ⟨feedId, status, stamp, hc, hunbound, hfree⟩ hbinds

/-- The law at a binding that lags. -/
theorem clock_step_resolvingOvertaken : ∃ x y : System, ∃ r r' : SubscriptionRow,
    x.Reachable ∧ x.act (.call 1) = some y ∧ r ∈ x.store.subscriptions ∧
    r' ∈ y.store.subscriptions ∧ r'.id = r.id ∧
    ((r' = r ∨ Stamp.Before r.updatedAt r'.updatedAt) ↔ ¬ x.Lags (.call 1) r) := by
  obtain ⟨x, y, r, r', hx, hy, hr, hr', rfl, rfl⟩ := bind_resolvingOvertaken
  exact ⟨x, y, _, _, hx, hy, hr, hr', rfl, clock_step hx hy hr hr' rfl⟩

/-- Binding a subscription takes its clock back. -/
theorem clock_goes_back : ∃ x y : System, ∃ a : Action, ∃ r r' : SubscriptionRow, x.Reachable ∧
    x.act a = some y ∧ r ∈ x.store.subscriptions ∧ r' ∈ y.store.subscriptions ∧ r'.id = r.id ∧
    r'.feedId ≠ r.feedId ∧ Stamp.Before r'.updatedAt r.updatedAt := by
  obtain ⟨x, y, r, r', hx, hy, hr, hr', rfl, rfl⟩ := bind_resolvingOvertaken
  refine ⟨x, y, _, _, _, hx, hy, hr, hr', rfl, by decide, ?_⟩
  let one : Instant := ⟨0, 0, 1000, by decide, by decide, by decide, by decide⟩
  let two : Instant := ⟨0, 0, 2000, by decide, by decide, by decide, by decide⟩
  have hone : one.stamp = "1970-01-01T00:00:00.000001Z" := by decide +kernel
  have htwo : two.stamp = "1970-01-01T00:00:00.000002Z" := by decide +kernel
  exact ⟨one, two, ⟨by decide, hone⟩, ⟨by decide, htwo⟩, by decide⟩

end System

end Syndication
