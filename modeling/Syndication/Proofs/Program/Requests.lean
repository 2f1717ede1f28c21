import Syndication.Proofs.Program.Operations
import Syndication.Proofs.Store.Loading
import Syndication.Store.Request
/-!
# The calls that requests make

Every request makes proper calls whatever the answers (`Request.ensures_allowed`), and only the
three requests of a crawl move feeds (`Request.crawl?`). Three calls depend on more than the call
before them, and for these `Request.Allowed` says what has been seen: a mapping is recorded when it
is asked for or for a subscription that has been found unbound, a subscription is bound with a
clock that follows the one it had at the first call, and a crawl is finished as the feed it found at
the first call demands.
-/

namespace Syndication

/-! ## Proper requests -/

/-- Rows to insert without a feed are pending. -/
def Request.Proper : Request → Prop
  | .insertPlanned rows _ _ => ∀ row ∈ rows, row.Proper
  | _ => True

/-- The feed that a request of a crawl moves, and the status it moves it into. -/
def Request.crawl? : Request → Option (Int × Status)
  | .beginCrawl id => some (id, .updating)
  | .finishCrawl id _ => some (id, .ready)
  | .failCrawl id => some (id, .error)
  | _ => none

/-- A proper call that neither records a mapping, binds a subscription nor moves a feed. -/
def Call.Plain : Call → Prop
  | .addMapping .. => False
  | .bind .. => False
  | .moveFeed .. => False
  | c => c.Proper

/-- A plain call that records no snapshot either. -/
def Call.Quiet : Call → Prop
  | .addSnapshot .. => False
  | c => c.Plain

theorem Call.Quiet.plain {c : Call} (h : c.Quiet) : c.Plain := by
  cases c with
  | addSnapshot => exact h.elim
  | _ => exact h

/-- What a request has seen when it records that a source leads to a target. -/
inductive Request.Records : Request → (source target stamp : String) → List Event → Prop
  | asked (source target : String) (t : Instant) :
      Records (.recordMapping source target) source target t.truncate.stamp [.read t]
  | askedAt (source target : String) (time : Instant) :
      Records (.recordMappingAt source target time) source target time.stamp []
  | resolving {id : Int} {target : String} {r : SubscriptionRow} {f : Option FeedRow}
      {a : Subscription} (t : Instant) (unbound : r.feedId = none)
      (loads : SubscriptionRow.load false (r, f) = .ok a) :
      Records (.resolve id target) r.url target t.truncate.stamp
        [.called (.findSubscription id none) (some (r, f)), .read t]

/-- What resolving a subscription has seen when it binds it to the feed in `row`, with a clock that
holds `next`. -/
inductive Request.Resolves (id : Int) (target : String) (row : FeedRow) (next : Instant) :
    List Event → Prop
  | seen {r : SubscriptionRow} {f : Option FeedRow} {a : Subscription} {m : Int}
      {t₁ t₂ t₃ : Instant} (unbound : r.feedId = none)
      (loads : SubscriptionRow.load false (r, f) = .ok a)
      (ticks : Instant.advance? a.updatedAt t₃.truncate = some next) :
      Resolves id target row next
        [.called (.findSubscription id none) (some (r, f)), .read t₁,
          .called (.addMapping r.url target t₁.truncate.stamp) m, .read t₂,
          .called (.ensureFeed target t₂.truncate.stamp) row, .read t₃]

theorem Request.Resolves.mem_ensureFeed {id : Int} {target : String} {row : FeedRow}
    {next : Instant} {past : List Event} (h : Resolves id target row next past) :
    ∃ stamp, Event.called (.ensureFeed target stamp) row ∈ past := by
  cases h with
  | @seen _ _ _ _ _ t₂ => exact ⟨t₂.truncate.stamp, by simp⟩

/-- What finishing a crawl has seen when it makes its transition. -/
inductive Request.Finishes (id : Int) (update : Feed.Update) : Transition → List Event → Prop
  | seen {row : FeedRow} {f : Feed} {t₁ t₂ next : Instant} (loads : row.load true = .ok f)
      (ticks : Instant.advance? f.updatedAt t₂.truncate = some next) :
      Finishes id update
        (.finish update (!update.fingerprint.agrees row.fingerprint) next.stamp t₁.truncate.stamp
          t₁.truncate)
        [.called (.findFeed id) (some row), .read t₁, .read t₂]

/-- The calls that a request makes after what it has seen. -/
def Request.Allowed (request : Request) (past : List Event) : Call → Prop
  | .addMapping source target stamp => request.Records source target stamp past
  | .bind id feedId status stamp => ∃ target row next, request = .resolve id target ∧
      Resolves id target row next past ∧ row.id = feedId ∧ row.status = status.name ∧
        stamp = next.stamp
  | .moveFeed id (.finish update changed updatedAt syncedAt now) =>
    request = .finishCrawl id update ∧
      Finishes id update (.finish update changed updatedAt syncedAt now) past
  | .moveFeed id t => request.crawl? = some (id, t.target) ∧ t.Proper
  | c => c.Proper

theorem Call.Plain.allowed {c : Call} (h : c.Plain) (request : Request) (past : List Event) :
    request.Allowed past c := by
  cases c with
  | addMapping => exact h.elim
  | bind => exact h.elim
  | moveFeed => exact h.elim
  | _ => exact h

/-- What a request may do is proper. -/
theorem Request.Allowed.proper {request : Request} {past : List Event} {c : Call}
    (h : request.Allowed past c) : c.Proper := by
  cases c with
  | addMapping source target stamp =>
    cases h with
    | asked _ _ t => exact Stamp.isWritten_stamp t.truncate
    | askedAt _ _ time => exact Stamp.isWritten_stamp time
    | resolving t _ _ => exact Stamp.isWritten_stamp t.truncate
  | bind id feedId status stamp =>
    obtain ⟨_, _, next, -, -, -, -, rfl⟩ := h
    exact Stamp.isWritten_stamp next
  | moveFeed id t =>
    cases t with
    | finish update changed updatedAt syncedAt now =>
      obtain ⟨-, hseen⟩ := h
      cases hseen with
      | seen _ _ =>
        exact ⟨Stamp.isWritten_stamp _, Stamp.isWritten_stamp _, Instant.isWhole_truncate _⟩
    | _ => exact h.2
  | _ => exact h

/-- A request that moves a feed is one of a crawl. -/
theorem Request.Allowed.crawl {request : Request} {past : List Event} {id : Int} {t : Transition}
    (h : request.Allowed past (.moveFeed id t)) : request.crawl? = some (id, t.target) := by
  cases t with
  | finish update changed updatedAt syncedAt now =>
    obtain ⟨rfl, -⟩ := h
    rfl
  | _ => exact h.1

/-! ## Operations whose calls need no past -/

variable {α β : Type}

namespace Operation

/-- Whatever the answers, an operation makes such calls only and gives such results only. -/
def Makes (calls : Call → Prop) (post : α → Prop) (op : Operation α) : Prop :=
  ∀ past, op.Ensures .recorded (fun _ => calls) (fun _ r => ∀ a, r = .ok a → post a) past

variable {calls : Call → Prop} {post : α → Prop}

theorem makes_pure {a : α} (h : post a) : (pure a : Operation α).Makes calls post := by
  intro past
  rw [ensures_pure]
  exact fun _ hb => Except.ok.inj hb ▸ h

theorem makes_throw {e : StoreError} : (throw e : Operation α).Makes calls post := by
  intro past
  rw [ensures_throw]
  exact fun _ hb => by cases hb

theorem makes_call {c : Call} (h : calls c) : (call c).Makes calls fun _ => True :=
  fun _ => ensures_call.2 ⟨h, fun _ _ _ _ _ => True.intro⟩

theorem makes_now : now.Makes calls Instant.IsWhole := by
  intro past
  rw [ensures_now]
  exact fun t _ _ _ ht => Except.ok.inj ht ▸ t.isWhole_truncate

theorem makes_tickAfter (previous : Instant) :
    (tickAfter previous).Makes calls fun next => Stamp.Before previous.stamp next.stamp := by
  intro past
  rw [ensures_tickAfter]
  intro t _ _ next hnext
  cases hadvance : Instant.advance? previous t.truncate with
  | none => simp [hadvance] at hnext
  | some u =>
    obtain rfl : u = next := by simpa [hadvance] using hnext
    exact .of_advance? t.isWhole_truncate hadvance

theorem Makes.bind {op : Operation α} {f : α → Operation β} {post' : β → Prop}
    (h : op.Makes calls post) (hf : ∀ a, post a → (f a).Makes calls post') :
    (op >>= f).Makes calls post' :=
  fun past => (h past).bind (fun y a ha => hf a (ha a rfl) y) fun _ _ _ _ hb => by cases hb

/-- What an operation gives whatever the answers, it gives alone with any store. -/
theorem Makes.runOn {op : Operation α} (h : op.Makes calls post) (clock : Nat → Instant)
    (s : Store) {a : α} (ha : (op.runOn clock s).1 = .ok a) : post a :=
  (h []).runOn_recorded clock s a ha

theorem Makes.mono {calls' : Call → Prop} {op : Operation α} (h : op.Makes calls post)
    (hcalls : ∀ c, calls c → calls' c) : op.Makes calls' post :=
  fun past => (h past).mono (fun _ => hcalls) fun _ _ h => h

theorem makes_loaded (v : Except StoreError α) : (loaded v).Makes calls fun _ => True :=
  fun _ => ensures_loaded.2 fun _ _ => True.intro

/-- A call and what comes after it. -/
theorem makes_call_bind {c : Call} {f : c.Answer → Operation α} (h : calls c)
    (hf : ∀ a, (f a).Makes calls post) : (call c >>= f).Makes calls post :=
  (makes_call h).bind fun a _ => hf a

/-- Makes only calls that need no past. -/
abbrev IsPlain (op : Operation α) : Prop := op.Makes Call.Plain fun _ => True

/-- Makes only calls that need no past, and records no snapshot. -/
abbrev IsQuiet (op : Operation α) : Prop := op.Makes Call.Quiet fun _ => True

theorem isQuiet_loaded (v : Except StoreError α) : (loaded v).IsQuiet := makes_loaded v

theorem isQuiet_pure (a : α) : (pure a : Operation α).IsQuiet := makes_pure True.intro

theorem IsQuiet.bind {op : Operation α} {f : α → Operation β} (h : op.IsQuiet)
    (hf : ∀ a, (f a).IsQuiet) : (op >>= f).IsQuiet :=
  Makes.bind h fun a _ => hf a

theorem IsQuiet.isPlain {op : Operation α} (h : op.IsQuiet) : op.IsPlain :=
  Makes.mono h fun _ => Call.Quiet.plain

end Operation

namespace Store

open Operation

/-! ## Reading -/

theorem isQuiet_findTarget (source : String) : (findTarget source).IsQuiet := makes_call True.intro

theorem isQuiet_findTargets (sources : List String) : (findTargets sources).IsQuiet :=
  makes_call True.intro

theorem isQuiet_loadAll (detail : Bool) (rows : List (SubscriptionRow × Option FeedRow)) :
    (loadAll detail rows).IsQuiet :=
  isQuiet_loaded _

theorem isQuiet_findSubscription (id : Int) (owner : Option Int) (detail : Bool) :
    (findSubscription id owner detail).IsQuiet := by
  refine makes_call_bind True.intro fun row => ?_
  cases row with
  | none => exact makes_throw
  | some row => exact isQuiet_loaded _

theorem isQuiet_listSubscriptions (user : Int) (ids : Option (List Int))
    (detail showPending : Bool) : (listSubscriptions user ids detail showPending).IsQuiet :=
  makes_call_bind True.intro fun rows => isQuiet_loadAll detail rows

theorem isQuiet_loadFeed (detail : Bool) (row : Option FeedRow) :
    (loadFeed detail row).IsQuiet := by
  cases row with
  | none => exact isQuiet_pure none
  | some row => exact (isQuiet_loaded _).bind fun f => isQuiet_pure (some f)

theorem isQuiet_getFeed (id : Int) (detail : Bool) : (getFeed id detail).IsQuiet :=
  makes_call_bind True.intro fun row => isQuiet_loadFeed detail row

theorem isQuiet_findFeedAt (url : String) (detail : Bool) : (findFeedAt url detail).IsQuiet :=
  makes_call_bind True.intro fun row => isQuiet_loadFeed detail row

theorem isQuiet_latestSnapshot (feedId : Int) : (latestSnapshot feedId).IsQuiet := by
  refine makes_call_bind True.intro fun row => ?_
  cases row with
  | none => exact isQuiet_pure none
  | some row => exact (isQuiet_loaded _).bind fun snapshot => isQuiet_pure (some snapshot)

theorem isQuiet_sync (user : Int) (query : SyncQuery) : (sync user query).IsQuiet := by
  unfold sync
  split
  · exact IsQuiet.bind (isQuiet_listSubscriptions _ _ _ _) fun all => isQuiet_pure _
  · refine makes_call_bind True.intro fun rows => IsQuiet.bind (isQuiet_loaded _) fun clocks => ?_
    dsimp only
    split
    · exact IsQuiet.bind (isQuiet_pure _) fun stale => isQuiet_pure _
    · exact IsQuiet.bind (isQuiet_listSubscriptions _ _ _ _) fun stale => isQuiet_pure _

/-! ## Writing -/

theorem isQuiet_getOrCreateFeed (url : String) : (getOrCreateFeed url).IsQuiet :=
  makes_now.bind fun time _ =>
    makes_call_bind (Stamp.isWritten_stamp time) fun _ => isQuiet_loaded _

theorem isPlain_recordSnapshot (draft : Snapshot.Draft) : (recordSnapshot draft).IsPlain := by
  refine makes_now.bind fun time _ => makes_call_bind (Stamp.isWritten_stamp time) fun id => ?_
  cases id with
  | none => exact makes_throw
  | some id => exact makes_pure True.intro

theorem isQuiet_unsubscribe (id user : Int) : (unsubscribe id user).IsQuiet := by
  refine makes_call_bind True.intro fun deleted => ?_
  cases deleted with
  | true => exact isQuiet_pure ()
  | false => exact makes_throw

theorem isQuiet_setOffsetWithin (id user offset : Int) (attempts : Nat) :
    (setOffsetWithin id user offset attempts).IsQuiet := by
  induction attempts with
  | zero => exact makes_throw
  | succ attempts ih =>
    refine (isQuiet_findSubscription id (some user) false).bind fun current => ?_
    refine (makes_tickAfter current.updatedAt).bind fun next hnext => ?_
    refine makes_call_bind hnext fun swapped => ?_
    cases swapped with
    | true => exact isQuiet_pure _
    | false => exact ih

theorem isQuiet_subscribeAs (user : Int) {p : Planned} (h : p.Proper) :
    (subscribeAs user p).IsQuiet := by
  refine makes_now.bind fun time _ => ?_
  refine makes_call_bind ⟨h, Stamp.isWritten_stamp time⟩ fun outcome => ?_
  rcases outcome with _ | ⟨id | ⟨id, feed⟩⟩
  · exact makes_throw
  · exact isQuiet_findSubscription id (some user) false
  · exact makes_throw

theorem isQuiet_subscribeTo (url : String) (user : Int) (feed : Option Feed) :
    (subscribeTo url user feed).IsQuiet := by
  cases feed with
  | none => exact isQuiet_subscribeAs user fun _ => rfl
  | some feed =>
    refine makes_call_bind True.intro fun rows => ?_
    refine IsQuiet.bind (isQuiet_loadAll false rows) fun held => ?_
    split
    · exact isQuiet_subscribeAs user fun h => by cases h
    · exact makes_throw

theorem isQuiet_subscribe (url : String) (user : Int) : (subscribe url user).IsQuiet := by
  rw [subscribe_eq]
  refine makes_call_bind True.intro fun target => ?_
  cases target with
  | none => exact isQuiet_subscribeTo url user none
  | some target =>
    exact IsQuiet.bind (isQuiet_findFeedAt target false) (isQuiet_subscribeTo url user)

theorem isQuiet_insertPlanned {rows : List Planned} (h : ∀ row ∈ rows, row.Proper) (size : Nat)
    (time : Instant) : (insertPlanned rows size time).IsQuiet := by
  refine makes_call_bind ⟨h, Stamp.isWritten_stamp time⟩ fun outcome => ?_
  rcases outcome with (_ | committed) | outcomes
  · exact makes_throw
  · exact makes_throw
  · exact isQuiet_pure outcomes

end Store

/-- A plan names feeds, or it is pending. -/
theorem Planned.proper_of_mem_listFrom {user : Int} {feedOf : String → Option Int}
    {seen : List String} {held : List Int} {urls : List String} :
    ∀ row ∈ listFrom user feedOf seen held urls, row.Proper := by
  intro row hrow
  obtain ⟨url, -, ⟨f, -, rfl⟩ | rfl⟩ := mem_listFrom hrow
  · exact fun h => by cases h
  · exact fun _ => rfl

namespace Store

open Operation

theorem isQuiet_subscribeAll (urls : List String) (user : Int) (size : Nat) :
    (subscribeAll urls user size).IsQuiet := by
  unfold subscribeAll
  split
  · exact isQuiet_pure []
  · refine makes_call_bind True.intro fun targets => makes_call_bind True.intro fun rows => ?_
    refine IsQuiet.bind (isQuiet_loaded _) fun feeds => makes_call_bind True.intro fun rows => ?_
    refine IsQuiet.bind (isQuiet_loadAll false rows) fun held => makes_now.bind fun time _ => ?_
    refine IsQuiet.bind (isQuiet_insertPlanned Planned.proper_of_mem_listFrom size time)
      fun outcomes => ?_
    dsimp only
    split
    · exact IsQuiet.bind (isQuiet_pure []) fun winners => isQuiet_pure _
    · exact IsQuiet.bind (isQuiet_listSubscriptions _ _ _ _) fun winners => isQuiet_pure _

/-! ## Recording, resolving and crawling -/

/-- Plain calls are allowed to every request. -/
theorem ensures_of_isPlain {op : Operation α} (h : op.IsPlain) (request : Request)
    (past : List Event) :
    op.Ensures .recorded request.Allowed (fun _ _ => True) past :=
  (h past).mono (fun past _ hc => hc.allowed request past) fun _ _ _ => True.intro

theorem ensures_allowed_recordMappingAt (source target : String) (time : Instant) :
    (recordMappingAt source target time).Ensures .recorded
      (Request.recordMappingAt source target time).Allowed (fun _ _ => True) [] :=
  ensures_bind.2 (ensures_call.2 ⟨.askedAt source target time, fun _ _ _ => True.intro⟩)

theorem ensures_allowed_recordMapping (source target : String) :
    (recordMapping source target).Ensures .recorded (Request.recordMapping source target).Allowed
      (fun _ _ => True) [] := by
  refine ensures_recordMapping.2 ?_
  rintro t _ rfl
  exact ⟨.asked source target t, fun _ _ _ => True.intro⟩

theorem ensures_allowed_resolve (id : Int) (target : String) :
    (resolve id target).Ensures .recorded (Request.resolve id target).Allowed (fun _ _ => True)
      [] := by
  refine ensures_resolve.2 ⟨True.intro, ?_⟩
  rintro found _ rfl
  rcases found with _ | ⟨r, f⟩
  · exact True.intro
  rw [Option.elim_some]
  cases hload : SubscriptionRow.load false (r, f) with
  | error e => exact True.intro
  | ok a =>
    have hloads := SubscriptionRow.load_eq_ok.1 hload
    dsimp only
    split
    · exact True.intro
    · next hunbound =>
      have hfeed : r.feedId = none := by
        simpa [Subscription.isBound, hloads.feedId] using hunbound
      refine ensures_resolveUnbound.2 ?_
      rintro t₁ _ rfl
      refine ⟨hloads.url ▸ .resolving t₁ hfeed hload, ?_⟩
      rintro m _ rfl
      cases MappingRow.load ⟨m, a.url, target, t₁.truncate.stamp⟩ with
      | error e => exact True.intro
      | ok mapping =>
        rintro t₂ _ rfl
        refine ⟨Stamp.isWritten_stamp _, ?_⟩
        rintro row _ rfl
        cases hrow : FeedRow.load true row with
        | error e => exact True.intro
        | ok feed =>
          have hvalue := FeedRow.load_eq_ok.1 hrow
          rintro t₃ _ rfl
          cases hnext : Instant.advance? a.updatedAt t₃.truncate with
          | none => exact True.intro
          | some next =>
            refine ⟨⟨target, row, next, rfl, ?_, hvalue.id.symm, hvalue.status.symm, rfl⟩, ?_⟩
            · rw [hloads.url]
              exact .seen hfeed hload hnext
            rintro outcome _ rfl
            cases outcome with
            | bound =>
              exact ensures_of_isPlain (isQuiet_findSubscription id (some a.user) false).isPlain _ _
            | stale => exact True.intro
            | duplicate => exact True.intro

/-- After a transition that is allowed a request of a crawl only reads. -/
theorem ensures_allowed_transit {request : Request} {past : List Event} {id : Int} {t : Transition}
    (h : request.Allowed past (.moveFeed id t)) :
    (transit id t).Ensures .recorded request.Allowed (fun _ _ => True) past :=
  ensures_transit h fun _ _ _ => ⟨True.intro, True.intro, fun _ _ _ => True.intro⟩

theorem ensures_allowed_beginCrawl (id : Int) :
    (beginCrawl id).Ensures .recorded (Request.beginCrawl id).Allowed (fun _ _ => True) [] := by
  unfold beginCrawl
  rw [ensures_bind, ensures_now]
  rintro t _ rfl
  exact ensures_allowed_transit ⟨rfl, Stamp.isWritten_stamp _⟩

theorem ensures_allowed_failCrawl (id : Int) :
    (failCrawl id).Ensures .recorded (Request.failCrawl id).Allowed (fun _ _ => True) [] := by
  unfold failCrawl
  rw [ensures_bind, ensures_now]
  rintro t _ rfl
  exact ensures_allowed_transit ⟨rfl, t.isWhole_truncate⟩

theorem ensures_allowed_finishCrawl (id : Int) (update : Feed.Update) :
    (finishCrawl id update).Ensures .recorded (Request.finishCrawl id update).Allowed
      (fun _ _ => True) [] := by
  rw [ensures_finishCrawl]
  refine ⟨True.intro, ?_⟩
  rintro found _ rfl
  cases found with
  | none => exact True.intro
  | some row =>
    rw [Option.elim_some]
    cases hload : FeedRow.load true row with
    | error e => exact True.intro
    | ok feed =>
      have hloads := FeedRow.load_eq_ok.1 hload
      dsimp only [Except.map]
      rintro t₁ _ rfl t₂ _ rfl
      cases hnext : Instant.advance? feed.updatedAt t₂.truncate with
      | none => exact True.intro
      | some next =>
        dsimp only
        rw [hloads.fingerprint]
        exact ensures_allowed_transit ⟨rfl, .seen hload hnext⟩

end Store

/-- **Requests make proper calls**, and what they bind or finish agrees with what they have seen. -/
theorem Request.ensures_allowed {request : Request} (h : request.Proper) :
    request.operation.Ensures .recorded request.Allowed (fun _ _ => True) [] := by
  have plain {α : Type} {op : Operation α} {g : α → Reply} (hop : op.IsPlain) :
      (g <$> op).Ensures .recorded request.Allowed (fun _ _ => True) [] :=
    Operation.ensures_map.2 (Store.ensures_of_isPlain hop request [])
  have quiet {α : Type} {op : Operation α} {g : α → Reply} (hop : op.IsQuiet) :
      (g <$> op).Ensures .recorded request.Allowed (fun _ _ => True) [] := plain hop.isPlain
  cases request with
  | recordMapping source target =>
    exact Operation.ensures_map.2 (Store.ensures_allowed_recordMapping source target)
  | recordMappingAt source target time =>
    exact Operation.ensures_map.2 (Store.ensures_allowed_recordMappingAt source target time)
  | findTarget source => exact quiet (Store.isQuiet_findTarget source)
  | findTargets sources => exact quiet (Store.isQuiet_findTargets sources)
  | getOrCreateFeed url => exact quiet (Store.isQuiet_getOrCreateFeed url)
  | getFeed id detail => exact quiet (Store.isQuiet_getFeed id detail)
  | findFeedAt url detail => exact quiet (Store.isQuiet_findFeedAt url detail)
  | beginCrawl id => exact Operation.ensures_map.2 (Store.ensures_allowed_beginCrawl id)
  | finishCrawl id update =>
    exact Operation.ensures_map.2 (Store.ensures_allowed_finishCrawl id update)
  | failCrawl id => exact Operation.ensures_map.2 (Store.ensures_allowed_failCrawl id)
  | recordSnapshot draft => exact plain (Store.isPlain_recordSnapshot draft)
  | latestSnapshot feedId => exact quiet (Store.isQuiet_latestSnapshot feedId)
  | subscribe url user => exact quiet (Store.isQuiet_subscribe url user)
  | subscribeAll urls user size => exact quiet (Store.isQuiet_subscribeAll urls user size)
  | getSubscription id user detail =>
    exact quiet (Store.isQuiet_findSubscription id (some user) detail)
  | unsubscribe id user => exact quiet (Store.isQuiet_unsubscribe id user)
  | sync user query => exact quiet (Store.isQuiet_sync user query)
  | setOffset id user offset =>
    exact quiet (Store.isQuiet_setOffsetWithin id user offset Store.offsetAttempts)
  | resolve id target => exact Operation.ensures_map.2 (Store.ensures_allowed_resolve id target)
  | insertPlanned rows size time => exact quiet (Store.isQuiet_insertPlanned h size time)

end Syndication
