import Syndication.Proofs.Program.Steps
/-!
# Attempts to set an offset

Setting an offset reads a subscription, computes the next value of its clock and writes it together
with the offset if the clock is still the one that has been read; otherwise it starts again, five
times at most. What it has seen is what attempts that have missed have seen, and as much of one more
attempt as `OffsetStands` says (`offsetStands_of_leads`).
-/

namespace Syndication

/-! ## Where setting an offset stands -/

namespace Store

/-- Setting an offset, with so many attempts left. -/
def settingOffset (id user offset : Int) (attempts : Nat) : Program (Except StoreError Reply) :=
  (Reply.subscription <$> setOffsetWithin id user offset attempts).run

/-- An attempt that has found a subscription and a value for its clock. -/
def swappingOffset (id user offset : Int) (attempts : Nat) (found : Subscription)
    (next : Instant) : Program (Except StoreError Reply) :=
  .call (.swapOffset id user offset found.updatedAt.stamp next.stamp) fun swapped =>
    if swapped then
      .done (.ok (.subscription { found with storyOffset := offset, updatedAt := next }))
    else settingOffset id user offset attempts

/-- An attempt that has found a subscription. -/
def tickingOffset (id user offset : Int) (attempts : Nat) (found : Subscription) :
    Program (Except StoreError Reply) :=
  .clock fun t => (Instant.advance? found.updatedAt t.truncate).elim
    (.done (.error .clockOverflow)) (swappingOffset id user offset attempts found)

theorem settingOffset_succ (id user offset : Int) (attempts : Nat) :
    settingOffset id user offset (attempts + 1) =
      .call (.findSubscription id (some user)) fun row =>
        match row.elim (.error (.subscriptionNotFound id)) (SubscriptionRow.load false) with
        | .error e => .done (.error e)
        | .ok found => tickingOffset id user offset attempts found := by
  unfold settingOffset
  refine congrArg (Program.call _) (funext fun row => ?_)
  cases row with
  | none => rfl
  | some row =>
    simp only [Option.elim]
    change ((Program.done (SubscriptionRow.load false row)).bind _).bind _ = _
    cases SubscriptionRow.load false row with
    | error e => rfl
    | ok found =>
      refine congrArg Program.clock (funext fun t => ?_)
      simp only [Program.bind, Function.comp, ExceptT.bindCont]
      cases Instant.advance? found.updatedAt t.truncate with
      | none => rfl
      | some next =>
        refine congrArg (Program.call _) (funext fun swapped => ?_)
        cases swapped <;> rfl

end Store

/-- What an attempt to set an offset has read: a row with its feed, and the time. -/
structure OffsetAttempt where
  row : SubscriptionRow × Option FeedRow
  /-- What the row holds. -/
  found : Subscription
  time : Instant
  /-- The value for the clock of the row. -/
  next : Instant
  loads : SubscriptionRow.load false row = .ok found
  ticks : Instant.advance? found.updatedAt time.truncate = some next

/-- What an attempt has seen when it is over. -/
def OffsetAttempt.events (id user offset : Int) (swapped : Bool) (a : OffsetAttempt) :
    List Event :=
  [.called (.findSubscription id (some user)) (some a.row), .read a.time,
    .called (.swapOffset id user offset a.found.updatedAt.stamp a.next.stamp) swapped]

/-- After attempts that have missed, what setting an offset has seen in the attempt after them and
what is left of it. -/
inductive OffsetStands (id user offset : Int) (missed : List OffsetAttempt) :
    List Event → Program (Except StoreError Reply) → Prop
  | ready {attempts : Nat} (hleft : missed.length + attempts = Store.offsetAttempts) :
      OffsetStands id user offset missed [] (Store.settingOffset id user offset attempts)
  | missing : OffsetStands id user offset missed
      [.called (.findSubscription id (some user)) none] (.done (.error (.subscriptionNotFound id)))
  | unreadable {row : SubscriptionRow × Option FeedRow} {e : StoreError}
      (hload : SubscriptionRow.load false row = .error e) : OffsetStands id user offset missed
        [.called (.findSubscription id (some user)) (some row)] (.done (.error e))
  | found {attempts : Nat} {row : SubscriptionRow × Option FeedRow} {found : Subscription}
      (hleft : missed.length + (attempts + 1) = Store.offsetAttempts)
      (hload : SubscriptionRow.load false row = .ok found) : OffsetStands id user offset missed
        [.called (.findSubscription id (some user)) (some row)]
        (Store.tickingOffset id user offset attempts found)
  | overflowing {row : SubscriptionRow × Option FeedRow} {found : Subscription} {t : Instant}
      (hload : SubscriptionRow.load false row = .ok found)
      (hticks : Instant.advance? found.updatedAt t.truncate = none) :
      OffsetStands id user offset missed
        [.called (.findSubscription id (some user)) (some row), .read t]
        (.done (.error .clockOverflow))
  | ticked {attempts : Nat} (a : OffsetAttempt)
      (hleft : missed.length + (attempts + 1) = Store.offsetAttempts) :
      OffsetStands id user offset missed
        [.called (.findSubscription id (some user)) (some a.row), .read a.time]
        (Store.swappingOffset id user offset attempts a.found a.next)
  | swapped (a : OffsetAttempt) : OffsetStands id user offset missed
      (a.events id user offset true) (.done (.ok (.subscription
        { a.found with storyOffset := offset, updatedAt := a.next })))

section Stands

variable {id user offset : Int} {missed : List OffsetAttempt} {tail : List Event}
  {rest : Program (Except StoreError Reply)}

/-- Setting an offset answers when it has swapped. -/
theorem OffsetStands.swapped_of_ok (h : OffsetStands id user offset missed tail rest)
    {reply : Reply} (hrest : rest = .done (.ok reply)) : ∃ a : OffsetAttempt,
      tail = a.events id user offset true ∧
        reply = .subscription { a.found with storyOffset := offset, updatedAt := a.next } := by
  cases h with
  | @ready attempts =>
    cases attempts with
    | zero => cases hrest
    | succ attempts =>
      rw [Store.settingOffset_succ] at hrest
      cases hrest
  | swapped a =>
    cases hrest
    exact ⟨a, rfl, rfl⟩
  | _ => cases hrest

/-- How setting an offset fails. -/
theorem OffsetStands.cases_of_error (h : OffsetStands id user offset missed tail rest)
    {e : StoreError} (hrest : rest = .done (.error e)) :
    (e = .contended id ∧ tail = [] ∧ missed.length = Store.offsetAttempts) ∨
      e = .subscriptionNotFound id ∨
      ∃ row more, tail = .called (.findSubscription id (some user)) (some row) :: more ∧
        ∀ found, SubscriptionRow.load false row = .ok found →
          ∃ t : Instant, Instant.advance? found.updatedAt t.truncate = none := by
  cases h with
  | @ready attempts hleft =>
    cases attempts with
    | zero =>
      cases hrest
      exact .inl ⟨rfl, rfl, hleft⟩
    | succ attempts =>
      rw [Store.settingOffset_succ] at hrest
      cases hrest
  | missing =>
    cases hrest
    exact .inr (.inl rfl)
  | @unreadable row _ hload =>
    refine .inr (.inr ⟨row, [], rfl, fun found hfound => ?_⟩)
    rw [hload] at hfound
    cases hfound
  | @overflowing row found t hload hticks =>
    refine .inr (.inr ⟨row, [.read t], rfl, fun found' hfound => ⟨t, ?_⟩⟩)
    obtain rfl := Except.ok.inj (hload.symm.trans hfound)
    exact hticks
  | _ => cases hrest

end Stands

/-- What setting an offset has seen: attempts that have missed, and one that is under way. -/
theorem offsetStands_of_leads {id user offset : Int} {past : List Event}
    {rest : Program (Except StoreError Reply)}
    (h : (Request.setOffset id user offset).operation.run.Leads past rest) :
    ∃ missed tail, past = missed.flatMap (OffsetAttempt.events id user offset false) ++ tail ∧
      OffsetStands id user offset missed tail rest := by
  induction h with
  | start => exact ⟨[], [], rfl, .ready (Nat.zero_add _)⟩
  | @call past c next answer _ ih =>
    obtain ⟨missed, tail, rfl, hstands⟩ := ih
    generalize hrest : Program.call c next = rest at hstands
    cases hstands with
    | @ready attempts hleft =>
      cases attempts with
      | zero => cases hrest
      | succ attempts =>
        rw [Store.settingOffset_succ] at hrest
        cases hrest
        refine ⟨missed, [.called (.findSubscription id (some user)) answer], by simp, ?_⟩
        cases answer with
        | none => exact .missing
        | some row =>
          dsimp only [Option.elim]
          split
          · next e hload => exact .unreadable hload
          · next found hload => exact .found hleft hload
    | ticked a hleft =>
      cases hrest
      cases answer with
      | true =>
        exact ⟨missed, a.events id user offset true, by simp [OffsetAttempt.events], .swapped a⟩
      | false =>
        refine ⟨missed ++ [a], [], ?_, .ready ?_⟩
        · simp [OffsetAttempt.events]
        · rw [List.length_append, List.length_singleton]
          omega
    | _ => cases hrest
  | @clock past next t _ ih =>
    obtain ⟨missed, tail, rfl, hstands⟩ := ih
    generalize hrest : Program.clock next = rest at hstands
    cases hstands with
    | @ready attempts hleft =>
      cases attempts with
      | zero => cases hrest
      | succ attempts =>
        rw [Store.settingOffset_succ] at hrest
        cases hrest
    | @found attempts row found hleft hload =>
      cases hrest
      refine ⟨missed, [.called (.findSubscription id (some user)) (some row), .read t], by simp, ?_⟩
      dsimp only
      cases hticks : Instant.advance? found.updatedAt t.truncate with
      | none => exact .overflowing hload hticks
      | some next => exact .ticked ⟨row, found, t, next, hload, hticks⟩ hleft
    | _ => cases hrest

/-! ## Clocks that are still there -/

namespace Store

variable {s : Store} {id user offset : Int} {seen stamp : String}

/-- A user's subscription is there, and its clock has a stamp. -/
def HasClock (s : Store) (id user : Int) (stamp : String) : Prop :=
  ∃ r ∈ s.subscriptions, r.id = id ∧ r.user = user ∧ r.updatedAt = stamp

theorem runSwapOffset_fst (offset : Int) (stamp : String) :
    (Call.runSwapOffset id user offset seen stamp s).1 = true ↔ s.HasClock id user seen := by
  simp [Call.runSwapOffset, Call.isOwned, HasClock, and_assoc]

theorem runSwapOffset_of_not (h : ¬ s.HasClock id user seen) :
    (Call.runSwapOffset id user offset seen stamp s).2 = s := by
  have hkept : ∀ r ∈ s.subscriptions, (if (Call.isOwned id user r && r.updatedAt = seen) = true
      then { r with storyOffset := offset, updatedAt := stamp } else r) = r := by
    intro r hr
    refine if_neg fun hmeets => h ⟨r, hr, ?_⟩
    simpa [Call.isOwned, and_assoc] using hmeets
  exact congrArg (fun rows => { s with subscriptions := rows })
    ((List.map_congr_left hkept).trans (List.map_id _))

/-- Where ids are distinct one row is written. -/
theorem Valid.runSwapOffset_of_hasClock (hs : s.Valid) (offset : Int) (stamp : String)
    (h : s.HasClock id user seen) :
    (Call.runSwapOffset id user offset seen stamp s).2 =
      s.editSubscription id fun r => { r with storyOffset := offset, updatedAt := stamp } := by
  obtain ⟨r₀, hr₀, rfl, rfl, rfl⟩ := h
  refine congrArg (fun rows => { s with subscriptions := rows })
    (List.map_congr_left fun r hr => ?_)
  by_cases hid : r.id = r₀.id
  · obtain rfl := hs.eq_of_id hr hr₀ hid
    simp [Call.isOwned]
  · simp [Call.isOwned, hid]

/-- Another clock makes another store. -/
theorem Valid.editSubscription_ne (hs : s.Valid) (h : s.HasClock id user seen)
    (hne : seen ≠ stamp) :
    s.editSubscription id (fun r => { r with storyOffset := offset, updatedAt := stamp }) ≠ s := by
  obtain ⟨r, hr, rfl, rfl, rfl⟩ := h
  intro hsame
  have hedited : { r with storyOffset := offset, updatedAt := stamp } ∈ s.subscriptions := by
    rw [← hsame]
    exact List.mem_map.2 ⟨r, hr, if_pos rfl⟩
  exact hne (congrArg (·.updatedAt) (hs.eq_of_id hedited hr rfl)).symm

end Store

section Quiet

variable {id user offset : Int}

theorem isQuiet_find (row : Option (SubscriptionRow × Option FeedRow)) :
    (Event.called (.findSubscription id (some user)) row).IsQuiet :=
  fun _ _ => rfl

theorem OffsetAttempt.isQuiet_of_missed (a : OffsetAttempt) :
    ∀ e ∈ a.events id user offset false, e.IsQuiet := by
  have hmissed : (Event.called (.swapOffset id user offset a.found.updatedAt.stamp a.next.stamp)
      false).IsQuiet := fun s hanswer => Store.runSwapOffset_of_not fun hclock => by
    rw [← Store.runSwapOffset_fst offset a.next.stamp] at hclock
    exact absurd (hclock.symm.trans hanswer) (by decide)
  intro e he
  simp only [events, List.mem_cons, List.not_mem_nil, or_false] at he
  rcases he with rfl | rfl | rfl
  · exact isQuiet_find _
  · exact True.intro
  · exact hmissed

theorem isQuiet_of_mem_missed {missed : List OffsetAttempt} :
    ∀ e ∈ missed.flatMap (OffsetAttempt.events id user offset false), e.IsQuiet := by
  intro e he
  obtain ⟨a, -, he⟩ := List.mem_flatMap.1 he
  exact a.isQuiet_of_missed e he

/-- Only the last write of setting an offset changes the store. -/
theorem OffsetStands.isQuiet {missed : List OffsetAttempt} {tail : List Event}
    {rest : Program (Except StoreError Reply)} (h : OffsetStands id user offset missed tail rest)
    (hrest : ∀ a, rest ≠ .done (.ok a)) : ∀ e ∈ tail, e.IsQuiet := by
  have hread (t : Instant) : (Event.read t).IsQuiet := True.intro
  cases h with
  | ready => simp
  | missing => simp [isQuiet_find]
  | unreadable => simp [isQuiet_find]
  | found => simp [isQuiet_find]
  | overflowing => simp [isQuiet_find, hread]
  | ticked => simp [isQuiet_find, hread]
  | swapped => exact absurd rfl (hrest _)

end Quiet

end Syndication
