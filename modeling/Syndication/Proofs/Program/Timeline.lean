import Syndication.Proofs.Program.Sequential
import Syndication.Proofs.Store.Mappings
import Syndication.Proofs.Store.Step
import Syndication.Proofs.Time.TextOrder
/-!
# Requests in time

Requests run one after another, and the clock never goes back. A `Moment` of such a run is its
store, the time it has come to and what has been recorded of where sources lead, in order. The log
of mappings holds just that, in the order of its ids and of its stamps (`Moment.Sound`), because a
request adds at most one mapping, with the time that the clock shows (`Request.logs_runOn`).
-/

namespace Syndication

/-! ## Moments -/

/-- A clock that never goes back and shows times from `start` on, up to `stop`. -/
structure Shows (start stop : Instant) (clock : Nat → Instant) : Prop where
  start_le : ∀ n, start ≤ clock n
  le_stop : ∀ n, clock n ≤ stop
  le_succ : ∀ n, clock n ≤ clock (n + 1)

namespace Request

/-- A time that is given to a request in place of the clock's is one that the clock could show. -/
def Timely (start stop : Instant) : Request → Prop
  | recordMappingAt _ _ time => start ≤ time ∧ time ≤ stop
  | _ => True

/-- What a request to a store records: that a source leads to a target. To resolve a subscription
records it for the address of the subscription, if that is found unbound. -/
def recorded? (s : Store) : Request → Option (String × String)
  | recordMapping source target => some (source, target)
  | recordMappingAt source target _ => some (source, target)
  | resolve id target =>
    match (Call.runFindSubscription id none s).elim (.error (.subscriptionNotFound id))
      (SubscriptionRow.load false) with
    | .ok a => if a.isBound then none else some (a.url, target)
    | .error _ => none
  | _ => none

end Request

/-- A moment of a run of requests one after another. -/
structure Moment where
  store : Store
  /-- No time after it has been shown. -/
  time : Instant
  /-- The sources that have been recorded, with their targets. -/
  recorded : List (String × String)

namespace Moment

/-- Before the first request. -/
def start (t : Instant) : Moment := ⟨.empty, t, []⟩

/-- The moment after a request, with a clock that has come to `stop` at most. -/
def after (m : Moment) (request : Request) (clock : Nat → Instant) (stop : Instant) : Moment where
  store := (request.operation.runOn clock m.store).2
  time := stop
  recorded := m.recorded ++ (request.recorded? m.store).toList

/-- From one moment requests lead to another. -/
inductive Passes (m : Moment) : Moment → Prop
  | refl : Passes m m
  | request {n : Moment} (h : Passes m n) {request : Request} {clock : Nat → Instant}
      {stop : Instant} (proper : request.Proper) (timely : request.Timely n.time stop)
      (shows : Shows n.time stop clock) : Passes m (n.after request clock stop)

end Moment

/-! ## What requests record -/

/-- What a store records is added to its log of mappings, with a time that is shown. -/
def Store.Logs (shown : Instant → Prop) (s s' : Store) : Option (String × String) → Prop
  | none => s'.mappings = s.mappings
  | some (source, target) => ∃ t, shown t ∧
    s'.mappings = s.mappings ++ [⟨nextId (s.mappings.map (·.id)), source, target, t.stamp⟩]

/-- Calls that record nothing leave the log of mappings. -/
theorem Program.Ensures.mappings_runOn {α : Type} {allowed : List Event → Call → Prop}
    {post : List Event → α → Prop} (hallowed : ∀ past source target stamp,
      ¬ allowed past (.addMapping source target stamp))
    {p : Program α} {past : List Event} (hp : Ensures .recorded allowed post past p)
    (clock : Nat → Instant) (s : Store) : (p.runOn clock s).2.mappings = s.mappings := by
  induction p generalizing past s clock with
  | done a => rfl
  | call c next ih =>
    have hcall := Call.mappings_run s fun source target stamp h =>
      hallowed past source target stamp (h ▸ hp.1)
    exact (ih _ (hp.2 _ _ rfl) clock _).trans hcall
  | clock next ih => exact ih _ (hp _ _ rfl) _ s

namespace Store

open Operation

/-- What resolving a subscription alone leaves and answers, with a clock that shows times of some
kind: when it succeeds the subscription has been unbound and is bound to the feed at the target. -/
structure ResolveEnds (id : Int) (target : String) (shown : Instant → Prop) (s s' : Store)
    (r : Except StoreError Subscription) : Prop where
  logs : s.Logs shown s' ((Request.resolve id target).recorded? s)
  ok : ∀ a, r = .ok a → (Request.resolve id target).recorded? s = some (a.url, target) ∧
    (∃ row ∈ s.subscriptions, row.id = id ∧ row.feedId = none ∧ a.url = row.url) ∧
      ∃ f ∈ s'.feeds, f.url = target ∧ a.feedId = some f.id

section Exits

variable {s s₁ s₂ : Store} {target : String} {shown : Instant → Prop} {r : SubscriptionRow}
  {a : Subscription} {row : FeedRow}

theorem Logged.recorded (h : s.Logged target shown r a s₁) :
    (Request.resolve r.id target).recorded? s = some (r.url, target) := by
  have hfeed : a.feedId = none := h.loads.feedId.trans h.unbound
  have hurl : a.url = r.url := h.loads.url
  have hfree : a.isBound = false := by simp [Subscription.isBound, hfeed]
  simp [Request.recorded?, h.found, hfree, hurl]

theorem Logged.logs (h : s.Logged target shown r a s₁) :
    s.Logs shown s₁ ((Request.resolve r.id target).recorded? s) := by
  obtain ⟨t, ht, rfl⟩ := h.logged
  rw [h.recorded]
  exact ⟨t, ht, by rw [← t.stamp_truncate]; rfl⟩

theorem Fed.recorded (h : s.Fed target shown r a row s₂) :
    (Request.resolve r.id target).recorded? s = some (r.url, target) := by
  obtain ⟨_, hlogged, -⟩ := h
  exact hlogged.recorded

theorem Fed.logs (h : s.Fed target shown r a row s₂) :
    s.Logs shown s₂ ((Request.resolve r.id target).recorded? s) := by
  obtain ⟨s₁, hlogged, t, -, rfl⟩ := h
  have hmappings : (Call.runEnsureFeed target t.truncate.stamp s₁).2.mappings = s₁.mappings :=
    Call.mappings_run (c := .ensureFeed target t.truncate.stamp) s₁ (by simp)
  have hlogs := hlogged.logs
  rw [hlogged.recorded] at hlogs ⊢
  rwa [Logs, hmappings]

end Exits

/-- **Resolving alone** records the address of an unbound subscription and, when it succeeds, binds
the subscription to the feed at the target. -/
theorem ensures_resolve_alone {s : Store} (h : s.Valid) (id : Int) (target : String)
    (shown : Instant → Prop) : (resolve id target).Ensures (.alone shown) (fun _ _ => True)
      (ResolveEnds id target shown s) s := by
  refine (ensures_resolve_exit h id target shown).mono (fun _ _ h => h) fun s' result hexit => ?_
  have failed {e : StoreError} (hlogs : s.Logs shown s' ((Request.resolve id target).recorded? s)) :
      ResolveEnds id target shown s s' (.error e) :=
    ⟨hlogs, fun _ ha => by cases ha⟩
  cases hexit with
  | unread hfound => exact failed (by simp only [Request.recorded?, hfound]; rfl)
  | bound hfound hbound =>
    exact failed (by simp only [Request.recorded?, hfound, hbound, if_true]; rfl)
  | unmapped hlogged => exact failed hlogged.logs
  | unfed hfed => exact failed hfed.logs
  | stopped hfed => exact failed hfed.logs
  | duplicate hfed => exact failed hfed.logs
  | @done r _ row s₂ _ status next hfed _ hbind hmem =>
    have hmappings : s'.mappings = s₂.mappings :=
      hbind ▸ Call.mappings_run (c := .bind r.id row.id status next.stamp) s₂ (by simp)
    have hfeeds : s'.feeds = s₂.feeds := hbind ▸ Call.feeds_runBind ..
    refine ⟨?_, fun b hb => ?_⟩
    · have hlogs := hfed.logs
      rw [hfed.recorded] at hlogs ⊢
      rwa [Logs, hmappings]
    · have hloads := SubscriptionRow.load_eq_ok.1 hb
      have hurl : b.url = r.url := hloads.url
      refine ⟨by rw [hfed.recorded, hurl], ⟨r, hfed.mem_subscriptions, rfl, hfed.unbound, hurl⟩,
        row, hfeeds ▸ hfed.mem, hfed.url, hloads.feedId⟩

end Store

/-- **A request records at most one mapping**, with a time that the clock shows. -/
theorem Request.logs_runOn {request : Request} (hrequest : request.Proper) {start stop : Instant}
    (htimely : request.Timely start stop) {clock : Nat → Instant} (hclock : Shows start stop clock)
    {s : Store} (h : s.Valid) :
    s.Logs (fun t => start ≤ t ∧ t ≤ stop) (request.operation.runOn clock s).2
      (request.recorded? s) := by
  have hshown (n : Nat) : start ≤ clock n ∧ clock n ≤ stop :=
    ⟨hclock.start_le n, hclock.le_stop n⟩
  have unrecorded (hnone : request.recorded? s = none)
      (hrecords : ∀ past source target stamp, ¬ request.Records source target stamp past) :
      s.Logs (fun t => start ≤ t ∧ t ≤ stop) (request.operation.runOn clock s).2
        (request.recorded? s) := by
    rw [hnone]
    exact (ensures_allowed hrequest).mappings_runOn hrecords clock s
  cases request with
  | recordMapping source target =>
    have hop : (Request.recordMapping source target).operation.Ensures
        (.alone fun t => start ≤ t ∧ t ≤ stop) (fun _ _ => True)
        (fun s' _ => s.Logs (fun t => start ≤ t ∧ t ≤ stop) s' (some (source, target))) s := by
      refine Operation.ensures_map.2 (Store.ensures_recordMapping.2 ?_)
      rintro t _ ⟨ht, rfl⟩
      refine ⟨True.intro, fun m s' hadd => ⟨t, ht, ?_⟩⟩
      rw [← hadd.2, ← t.stamp_truncate]
      rfl
    exact hop.runOn hshown
  | recordMappingAt source target time =>
    have hop : (Request.recordMappingAt source target time).operation.Ensures
        (.alone fun t => start ≤ t ∧ t ≤ stop) (fun _ _ => True)
        (fun s' _ => s.Logs (fun t => start ≤ t ∧ t ≤ stop) s' (some (source, target))) s := by
      refine Operation.ensures_map.2
        (Operation.ensures_bind.2 (Operation.ensures_call.2 ⟨True.intro, fun m s' hadd => ?_⟩))
      exact ⟨time, htimely, hadd.2 ▸ rfl⟩
    exact hop.runOn hshown
  | resolve id target =>
    have hop : (Request.resolve id target).operation.Ensures
        (.alone fun t => start ≤ t ∧ t ≤ stop) (fun _ _ => True)
        (fun s' _ => s.Logs (fun t => start ≤ t ∧ t ≤ stop) s'
          ((Request.resolve id target).recorded? s)) s :=
      Operation.ensures_map.2 ((Store.ensures_resolve_alone h id target _).mono (fun _ _ h => h)
        fun _ _ hends => hends.logs)
    exact hop.runOn hshown
  | _ => exact unrecorded rfl fun _ _ _ _ hrecords => (by cases hrecords)

/-! ## The log of mappings -/

namespace Moment

/-- What the log of mappings holds at a moment. -/
structure Sound (m : Moment) : Prop where
  valid : m.store.Valid
  recorded : m.store.mappings.map (fun r => (r.source, r.target)) = m.recorded
  /-- No mapping is of a later time. -/
  stamped : ∀ r ∈ m.store.mappings, ∃ t, Stamp.Holds r.createdAt t ∧ t ≤ m.time
  ordered : m.store.mappings.Pairwise fun r r' => r.id < r'.id ∧
    ∃ t t', Stamp.Holds r.createdAt t ∧ Stamp.Holds r'.createdAt t' ∧ t ≤ t'

theorem sound_start (t : Instant) : (start t).Sound :=
  ⟨Store.valid_empty, rfl, by simp [start, Store.empty], by simp [start, Store.empty]⟩

theorem Sound.after {m : Moment} (h : m.Sound) {request : Request} (hrequest : request.Proper)
    {stop : Instant} (htimely : request.Timely m.time stop) {clock : Nat → Instant}
    (hclock : Shows m.time stop clock) : (m.after request clock stop).Sound := by
  have hlater : m.time ≤ stop := Instant.le_trans (hclock.start_le 0) (hclock.le_stop 0)
  have hvalid : (m.after request clock stop).store.Valid :=
    (request.evolves_runOn hrequest clock h.valid).valid
  have hlogs := request.logs_runOn hrequest htimely hclock h.valid
  cases hrecorded : request.recorded? m.store with
  | none =>
    rw [hrecorded] at hlogs
    have hsame : (m.after request clock stop).store.mappings = m.store.mappings := hlogs
    refine ⟨hvalid, ?_, fun r hr => ?_, hsame ▸ h.ordered⟩
    · rw [hsame, h.recorded, Moment.after, hrecorded, Option.toList_none, List.append_nil]
    · obtain ⟨t, ht, hle⟩ := h.stamped r (hsame ▸ hr)
      exact ⟨t, ht, Instant.le_trans hle hlater⟩
  | some p =>
    rw [hrecorded] at hlogs
    obtain ⟨t, ⟨hstart, hstop⟩, hadded⟩ := hlogs
    have hadded : (m.after request clock stop).store.mappings = m.store.mappings ++ [_] := hadded
    refine ⟨hvalid, ?_, fun r hr => ?_, ?_⟩
    · rw [hadded, List.map_append, h.recorded, Moment.after, hrecorded]
      rfl
    · rw [hadded] at hr
      rcases List.mem_append.1 hr with hr | hr
      · obtain ⟨t, ht, hle⟩ := h.stamped r hr
        exact ⟨t, ht, Instant.le_trans hle hlater⟩
      · obtain rfl := List.mem_singleton.1 hr
        exact ⟨t.truncate, Stamp.holds_stamp t, Instant.le_trans t.truncate_le hstop⟩
    · rw [hadded]
      refine List.pairwise_append.2 ⟨h.ordered, List.pairwise_singleton _ _, fun r hr r' hr' => ?_⟩
      obtain rfl := List.mem_singleton.1 hr'
      obtain ⟨t₀, ht₀, hle⟩ := h.stamped r hr
      refine ⟨Store.lt_nextId (List.mem_map_of_mem hr), t₀, t.truncate, ht₀, Stamp.holds_stamp t,
        ?_⟩
      -- both times are of the precision of a store
      rw [← Instant.truncate_eq_self ht₀.1]
      exact Instant.truncate_mono (Instant.le_trans hle hstart)

variable {m n : Moment}

theorem Passes.sound (h : m.Passes n) (hm : m.Sound) : n.Sound := by
  induction h with
  | refl => exact hm
  | request _ hrequest htimely hclock ih => exact ih.after hrequest htimely hclock

theorem Passes.extends (h : m.Passes n) (hm : m.Sound) : m.store.Extends n.store := by
  induction h with
  | refl => exact .refl _
  | request h hrequest _ _ ih =>
    exact ih.trans (Request.evolves_runOn hrequest _ (h.sound hm).valid).toExtends

end Moment

end Syndication
