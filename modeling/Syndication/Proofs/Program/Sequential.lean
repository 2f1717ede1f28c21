import Syndication.Proofs.Program.Requests
import Syndication.Proofs.Store.Change
/-!
# Requests one after another

A request that runs alone leaves a valid store, and whatever the clock shows every subscription
that it leaves in place looks as before or has a later clock: `Request.evolves_runOn`. Resolving is
the one request that makes its changes call by call; `Store.ResolveExit` tells all the places where
it ends, with what it has done until there.
-/

namespace Syndication

/-! ## Stores that evolve -/

/-- A store has come of another by changes that clocks tell of. -/
structure Store.Evolves (s s' : Store) : Prop extends s.Extends s' where
  valid : s'.Valid
  view : ∀ r ∈ s.subscriptions, ∀ r' ∈ s'.subscriptions, r'.id = r.id →
    s'.view r' = s.view r ∨ Stamp.Before r.updatedAt r'.updatedAt

namespace Store.Evolves

theorem refl {s : Store} (h : s.Valid) : s.Evolves s where
  toExtends := .refl s
  valid := h
  view r hr r' hr' hid := .inl (by rw [h.eq_of_id hr' hr hid])

theorem trans {s t u : Store} (hs : s.Valid) (hst : s.Evolves t) (htu : t.Evolves u) :
    s.Evolves u where
  toExtends := hst.toExtends.trans htu.toExtends
  valid := htu.valid
  view r hr r'' hr'' hid := by
    have hle : r''.id ≤ t.lastSubscriptionId := by
      have := hs.id_le r hr
      have := hst.lastId_le
      omega
    obtain ⟨r', hr', hlives⟩ := htu.toExtends.subscription hr'' hle
    rcases hst.view r hr r' hr' (hlives.id.trans hid) with hview | hbefore
    · have hrow : r' = r := congrArg Prod.fst hview
      rw [← hview, ← hrow]
      exact htu.view r' hr' r'' hr'' hlives.id.symm
    · rcases htu.view r' hr' r'' hr'' hlives.id.symm with hview | hbefore'
      · have hrow : r'' = r' := congrArg Prod.fst hview
        exact .inr (hrow ▸ hbefore)
      · exact .inr (hbefore.trans hbefore')

/-- A proper call that binds nothing. -/
theorem of_run {s : Store} (h : s.Valid) {c : Call} (hc : c.Proper)
    (hbind : ∀ id feedId status stamp, c ≠ .bind id feedId status stamp) :
    s.Evolves (c.run s).2 where
  toExtends := Call.extends_run h c
  valid := Call.valid_run h hc (by
    cases c with
    | bind => exact (hbind _ _ _ _ rfl).elim
    | _ => exact True.intro)
  view r hr r' hr' hid := by
    rcases Call.view_run h hc hr hr' hid with hview | hbefore | ⟨feedId, status, stamp, rfl, -⟩
    · exact .inl hview
    · exact .inr hbefore
    · exact (hbind _ _ _ _ rfl).elim

/-- A binding to a feed that exists, with a clock that is later. -/
theorem of_bind {s : Store} (h : s.Valid) {id feedId : Int} {status : Status} {stamp : String}
    (hfeed : ∃ f ∈ s.feeds, f.id = feedId)
    (hstamp : ∀ r ∈ s.subscriptions, r.id = id → Stamp.Before r.updatedAt stamp) :
    s.Evolves ((Call.bind id feedId status stamp).run s).2 where
  toExtends := Call.extends_run h _
  valid := by
    rcases Call.runBind_cases id feedId status stamp s with ⟨-, hs⟩ | ⟨r, hr, -⟩
    · change (Call.runBind id feedId status stamp s).2.Valid
      rwa [hs]
    · obtain ⟨hmem, hid⟩ := mem_of_subscription? hr
      exact Call.valid_run h (hstamp r hmem hid).right hfeed
  view r hr r' hr' hid := by
    refine (view_bind h id feedId status stamp hr hr' hid).imp_right fun hbound => ?_
    obtain ⟨⟨hrid, -⟩, rfl⟩ := hbound
    exact hstamp r hr hrid

end Store.Evolves

/-! ## Requests alone -/

variable {α : Type}

/-- Calls that are proper and bind nothing let a store evolve. -/
theorem Program.Ensures.evolves {allowed : List Event → Call → Prop} {post : List Event → α → Prop}
    (hallowed : ∀ past c, allowed past c → c.Proper ∧
      ∀ id feedId status stamp, c ≠ .bind id feedId status stamp)
    {p : Program α} {past : List Event} (hp : Ensures .recorded allowed post past p)
    (clock : Nat → Instant) {s : Store} (h : s.Valid) : s.Evolves (p.runOn clock s).2 := by
  induction p generalizing past s clock with
  | done a => exact .refl h
  | call c next ih =>
    obtain ⟨hproper, hbind⟩ := hallowed past c hp.1
    have hcall := Store.Evolves.of_run h hproper hbind
    exact hcall.trans h (ih _ (hp.2 _ _ rfl) clock hcall.valid)
  | clock next ih => exact ih _ (hp _ _ rfl) _ h

namespace Store

open Operation

/-- What a subscription is found as when nobody else touches the store. -/
theorem loads_of_find {s : Store} {id : Int} {owner : Option Int} {detail : Bool}
    {a : Subscription} (h : ((Call.findSubscription id owner).run s).1.elim
      (.error (.subscriptionNotFound id)) (SubscriptionRow.load detail) = .ok a) :
    ∃ r ∈ s.subscriptions, r.id = id ∧ SubscriptionRow.Loads detail (s.withFeed r) a := by
  cases hfound : ((Call.findSubscription id owner).run s).1 with
  | none =>
    rw [hfound] at h
    cases h
  | some row =>
    rw [hfound, Option.elim_some] at h
    obtain ⟨r, hr, hid, rfl⟩ := exists_of_runFindSubscription hfound
    exact ⟨r, hr, hid, SubscriptionRow.load_eq_ok.1 h⟩

/-! ## Resolving alone -/

/-- An unbound subscription has been read and its address recorded, which leaves `s₁`. -/
structure Logged (s : Store) (target : String) (shown : Instant → Prop) (r : SubscriptionRow)
    (a : Subscription) (s₁ : Store) : Prop where
  mem : r ∈ s.subscriptions
  unbound : r.feedId = none
  found : (Call.runFindSubscription r.id none s).elim (.error (.subscriptionNotFound r.id))
    (SubscriptionRow.load false) = .ok a
  loads : SubscriptionRow.Loads false (s.withFeed r) a
  logged : ∃ t, shown t ∧ (Call.runAddMapping r.url target t.truncate.stamp s).2 = s₁

/-- After that the feed at the target has been found, which leaves `s₂`. -/
def Fed (s : Store) (target : String) (shown : Instant → Prop) (r : SubscriptionRow)
    (a : Subscription) (row : FeedRow) (s₂ : Store) : Prop :=
  ∃ s₁, s.Logged target shown r a s₁ ∧ ∃ t : Instant,
    (Call.runEnsureFeed target t.truncate.stamp s₁).1 = row ∧
      (Call.runEnsureFeed target t.truncate.stamp s₁).2 = s₂

/-- Where resolving a subscription alone ends, with the store that it leaves and its result. -/
inductive ResolveExit (s : Store) (target : String) (shown : Instant → Prop) :
    Int → Store → Except StoreError Subscription → Prop
  | unread {id : Int} {e : StoreError}
      (h : (Call.runFindSubscription id none s).elim (.error (.subscriptionNotFound id))
        (SubscriptionRow.load false) = .error e) : ResolveExit s target shown id s (.error e)
  | bound {id : Int} {a : Subscription}
      (h : (Call.runFindSubscription id none s).elim (.error (.subscriptionNotFound id))
        (SubscriptionRow.load false) = .ok a) (hbound : a.isBound = true) :
      ResolveExit s target shown id s (.error (.alreadyBound id))
  | unmapped {r : SubscriptionRow} {a : Subscription} {s₁ : Store} {m : MappingRow} {e : StoreError}
      (h : s.Logged target shown r a s₁) (hm : m ∈ s₁.mappings) (hload : m.load = .error e) :
      ResolveExit s target shown r.id s₁ (.error e)
  | unfed {r : SubscriptionRow} {a : Subscription} {row : FeedRow} {s₂ : Store} {e : StoreError}
      (h : s.Fed target shown r a row s₂) (hload : row.load true = .error e) :
      ResolveExit s target shown r.id s₂ (.error e)
  | stopped {r : SubscriptionRow} {a : Subscription} {row : FeedRow} {s₂ : Store} {now : Instant}
      (h : s.Fed target shown r a row s₂) (hnone : a.updatedAt.advance? now = none) :
      ResolveExit s target shown r.id s₂ (.error .clockOverflow)
  | duplicate {r held : SubscriptionRow} {a : Subscription} {row : FeedRow} {s₂ : Store}
      (h : s.Fed target shown r a row s₂) (hheld : s₂.holder? r.user row.id = some held) :
      ResolveExit s target shown r.id s₂ (.error (.duplicateSubscription r.user row.id))
  /-- The subscription is bound, with a clock that follows its own, and read. -/
  | done {r : SubscriptionRow} {a : Subscription} {row : FeedRow} {s₂ s₃ : Store} {status : Status}
      {next : Instant} (h : s.Fed target shown r a row s₂)
      (hlater : Stamp.Before r.updatedAt next.stamp)
      (hbind : (Call.runBind r.id row.id status next.stamp s₂).2 = s₃)
      (hmem : r.boundTo row.id status next.stamp ∈ s₃.subscriptions) :
      ResolveExit s target shown r.id s₃
        (SubscriptionRow.load false (s₃.withFeed (r.boundTo row.id status next.stamp)))

section Exits

variable {s s₁ s₂ : Store} {target : String} {shown : Instant → Prop} {r : SubscriptionRow}
  {a : Subscription} {row : FeedRow}

theorem Logged.evolves (h : s.Logged target shown r a s₁) (hs : s.Valid) : s.Evolves s₁ := by
  obtain ⟨t, -, rfl⟩ := h.logged
  have hproper : (Call.addMapping r.url target t.truncate.stamp).Proper :=
    Stamp.isWritten_stamp t.truncate
  exact .of_run hs hproper (by simp)

theorem Logged.subscriptions (h : s.Logged target shown r a s₁) :
    s₁.subscriptions = s.subscriptions := by
  obtain ⟨t, -, rfl⟩ := h.logged
  rfl

namespace Fed

theorem evolves (h : s.Fed target shown r a row s₂) (hs : s.Valid) : s.Evolves s₂ := by
  obtain ⟨s₁, hlogged, t, -, rfl⟩ := h
  have h₁ := hlogged.evolves hs
  have hproper : (Call.ensureFeed target t.truncate.stamp).Proper :=
    Stamp.isWritten_stamp t.truncate
  exact h₁.trans hs (.of_run h₁.valid hproper (by simp))

theorem mem_subscriptions (h : s.Fed target shown r a row s₂) : r ∈ s.subscriptions := by
  obtain ⟨_, hlogged, -⟩ := h
  exact hlogged.mem

theorem unbound (h : s.Fed target shown r a row s₂) : r.feedId = none := by
  obtain ⟨_, hlogged, -⟩ := h
  exact hlogged.unbound

theorem subscriptions (h : s.Fed target shown r a row s₂) : s₂.subscriptions = s.subscriptions := by
  obtain ⟨s₁, hlogged, t, -, rfl⟩ := h
  rw [subscriptions_ensureFeed, hlogged.subscriptions]

theorem mem (h : s.Fed target shown r a row s₂) : row ∈ s₂.feeds := by
  obtain ⟨s₁, -, t, rfl, rfl⟩ := h
  exact mem_feeds_ensureFeed ..

theorem url (h : s.Fed target shown r a row s₂) : row.url = target := by
  obtain ⟨s₁, -, t, rfl, -⟩ := h
  exact url_ensureFeed ..

/-- Binding makes the clock of the subscription follow its own. -/
theorem evolves_bind (h : s.Fed target shown r a row s₂) (hs : s.Valid) {stamp : String}
    (hlater : Stamp.Before r.updatedAt stamp) (status : Status) :
    s.Evolves (Call.runBind r.id row.id status stamp s₂).2 := by
  have h₂ := h.evolves hs
  refine h₂.trans hs (.of_bind h₂.valid ⟨row, h.mem, rfl⟩ fun r' hr' hid => ?_)
  obtain rfl := hs.eq_of_id (h.subscriptions ▸ hr') h.mem_subscriptions hid
  exact hlater

end Fed

end Exits

/-- **Resolving alone** ends in one of these ways. -/
theorem ensures_resolve_exit {s : Store} (h : s.Valid) (id : Int) (target : String)
    (shown : Instant → Prop) : (resolve id target).Ensures (.alone shown) (fun _ _ => True)
      (s.ResolveExit target shown id) s := by
  refine ensures_resolve.2 ⟨True.intro, ?_⟩
  rintro found s₀ ⟨rfl, hs₀⟩
  obtain rfl : s = s₀ := hs₀
  cases hfound : ((Call.findSubscription id none).run s).1.elim
      (.error (.subscriptionNotFound id)) (SubscriptionRow.load false) with
  | error e => exact .unread hfound
  | ok a =>
    dsimp only
    split
    · next hbound => exact .bound hfound hbound
    next hfree =>
    obtain ⟨r, hr, rfl, ha⟩ := loads_of_find hfound
    have hunbound : r.feedId = none := ha.feedId.symm.trans (Option.not_isSome_iff_eq_none.1 hfree)
    refine ensures_resolveUnbound.2 ?_
    rintro t₁ _ ⟨ht₁, rfl⟩
    refine ⟨True.intro, ?_⟩
    intro m s₁ hadd
    have hs₁ : (Call.runAddMapping a.url target t₁.truncate.stamp s).2 = s₁ := hadd.2
    rw [ha.url] at hs₁
    have hlogged : s.Logged target shown r a s₁ := ⟨hr, hunbound, hfound, ha, t₁, ht₁, hs₁⟩
    cases hmapping : MappingRow.load _ with
    | error e =>
      refine .unmapped hlogged ?_ hmapping
      rw [← hs₁, ← hadd.1, ha.url]
      exact List.mem_append_right _ List.mem_cons_self
    | ok mapping =>
      rintro t₂ _ ⟨-, rfl⟩
      refine ⟨True.intro, ?_⟩
      intro row s₂ hensure
      have hfed : s.Fed target shown r a row s₂ :=
        ⟨s₁, hlogged, t₂, hensure⟩
      cases hload : FeedRow.load true row with
      | error e => exact .unfed hfed hload
      | ok feed =>
        rintro t₃ _ ⟨-, rfl⟩
        cases hnext : Instant.advance? a.updatedAt t₃.truncate with
        | none => exact .stopped hfed hnext
        | some next =>
          have hfound₂ : s₂.subscription? r.id = some r := by
            rw [subscription?, hfed.subscriptions]
            exact h.subscription?_eq_some.2 ⟨hr, rfl⟩
          have hlater : Stamp.Before r.updatedAt next.stamp := by
            rw [← (Stamp.Holds.of_decode (h.written_updatedAt hr) ha.updatedAt).2]
            exact .of_advance? t₃.isWhole_truncate hnext
          refine ⟨True.intro, ?_⟩
          rintro outcome s₃ ⟨houtcome, hs₃⟩
          change (Call.runBind r.id feed.id feed.status next.stamp s₂).1 = outcome at houtcome
          change (Call.runBind r.id feed.id feed.status next.stamp s₂).2 = s₃ at hs₃
          have hfeed : feed.id = row.id := (FeedRow.load_eq_ok.1 hload).id
          rw [hfeed] at houtcome hs₃
          rcases Call.runBind_of_unbound hfound₂ hunbound row.id feed.status next.stamp with
            hbinds | ⟨⟨held, hheld⟩, hstays⟩
          · rw [hbinds] at houtcome
            obtain rfl := houtcome
            have hmem : r.boundTo row.id feed.status next.stamp ∈ s₃.subscriptions := by
              rw [← hs₃, hbinds]
              exact List.mem_map.2 ⟨r, (mem_of_subscription? hfound₂).1, if_pos rfl⟩
            have hvalid : s₃.Valid := hs₃ ▸ (hfed.evolves_bind h hlater feed.status).valid
            have hread := runFindSubscription_eq (hvalid.subscription?_eq_some.2 ⟨hmem, rfl⟩)
            refine ensures_findSubscription.2 ⟨True.intro, ?_⟩
            rintro found _ ⟨hfound₃, rfl⟩
            rw [ha.user] at hfound₃
            obtain rfl := hread.symm.trans hfound₃
            exact .done hfed hlater hs₃ hmem
          · rw [hstays] at houtcome hs₃
            obtain rfl := houtcome
            obtain rfl := hs₃
            rw [ha.user, hfeed]
            exact .duplicate hfed hheld

/-- Resolving alone: when the subscription is bound its clock is still the one seen. -/
theorem ensures_evolves_resolve {s : Store} (h : s.Valid) (id : Int) (target : String) :
    (resolve id target).Ensures (.alone fun _ => True) (fun _ _ => True)
      (fun s' _ => s.Evolves s') s := by
  refine (ensures_resolve_exit h id target _).mono (fun _ _ h => h) fun s' result hexit => ?_
  cases hexit with
  | unread => exact .refl h
  | bound => exact .refl h
  | unmapped hlogged => exact hlogged.evolves h
  | unfed hfed => exact hfed.evolves h
  | stopped hfed => exact hfed.evolves h
  | duplicate hfed => exact hfed.evolves h
  | @done _ _ _ _ _ status _ hfed hlater hbind =>
    subst hbind
    exact hfed.evolves_bind h hlater status

end Store

/-- **Requests alone let stores evolve**, whatever the clock shows. -/
theorem Request.evolves_runOn {request : Request} (hrequest : request.Proper)
    (clock : Nat → Instant) {s : Store} (h : s.Valid) :
    s.Evolves (request.operation.runOn clock s).2 := by
  by_cases hresolve : ∃ id target, request = .resolve id target
  · obtain ⟨id, target, rfl⟩ := hresolve
    have hop : (Request.resolve id target).operation.Ensures (.alone fun _ => True)
        (fun _ _ => True) (fun s' _ => s.Evolves s') s := by
      change (Reply.subscription <$> Store.resolve id target).Ensures _ _ _ _
      rw [Operation.ensures_map]
      exact Store.ensures_evolves_resolve h id target
    exact hop.runOn_any clock
  · refine (ensures_allowed hrequest).evolves (fun past c hc => ⟨hc.proper, ?_⟩) clock h
    rintro id feedId status stamp rfl
    obtain ⟨target, _, _, hrequest, -⟩ := hc
    exact hresolve ⟨id, target, hrequest⟩

end Syndication
