import Syndication.Proofs.Store.Valid
import Syndication.Store.Loading
/-!
# Rows and their values

A row loads as the value whose fields its columns hold (`FeedRow.load_eq_ok`,
`SubscriptionRow.load_eq_ok`), or a column cannot be read (`FeedRow.unreadable_of_load`). In a
valid store whose instants lie in the years 0 to 9999 every row loads (`Store.Valid.feed_loads`,
`Store.Valid.subscription_loads`).
-/

namespace Syndication

theorem bind_eq_ok {ε α β : Type} {x : Except ε α} {f : α → Except ε β} {b : β} :
    (x >>= f) = .ok b ↔ ∃ a, x = .ok a ∧ f a = .ok b := by
  cases x with
  | ok a => exact ⟨fun h => ⟨a, rfl, h⟩, fun ⟨_, ha, h⟩ => Except.ok.inj ha ▸ h⟩
  | error e => exact ⟨fun h => (by cases h), fun ⟨_, ha, _⟩ => (by cases ha)⟩

theorem map_eq_ok {ε α β : Type} {x : Except ε α} {f : α → β} {b : β} :
    x.map f = .ok b ↔ ∃ a, x = .ok a ∧ f a = b := by
  cases x with
  | ok a => simp [Except.map]
  | error e => simp [Except.map]

/-! ## Columns -/

theorem Stamp.load_eq_ok {text : String} {t : Instant} :
    Stamp.load text = .ok t ↔ Stamp.decode text = .ok t := by
  unfold Stamp.load
  cases Stamp.decode text <;> simp

theorem Status.load_eq_ok {name : String} {status : Status} :
    Status.load name = .ok status ↔ status.name = name := by
  constructor
  · intro h
    unfold Status.load at h
    split at h
    · next found hfound =>
      obtain rfl := Except.ok.inj h
      simpa using List.find?_some hfound
    · cases h
  · rintro rfl
    cases status <;> rfl

theorem Status.name_injective {a b : Status} (h : a.name = b.name) : a = b :=
  Except.ok.inj ((Status.load_eq_ok.2 rfl).symm.trans (Status.load_eq_ok.2 h.symm))

/-! ## Feeds -/

/-- The value holds what the columns hold. -/
structure FeedRow.Loads (detail : Bool) (r : FeedRow) (f : Feed) : Prop where
  id : f.id = r.id
  url : f.url = r.url
  status : f.status.name = r.status
  profile : f.profile = r.profile
  createdAt : Stamp.decode r.createdAt = .ok f.createdAt
  updatedAt : Stamp.decode r.updatedAt = .ok f.updatedAt
  details : (if detail then r.loadDetail.map some else .ok none) = .ok f.detail

theorem FeedRow.load_eq_ok {detail : Bool} {r : FeedRow} {f : Feed} :
    r.load detail = .ok f ↔ r.Loads detail f := by
  have hload : r.load detail = .ok f ↔ ∃ details : Option Feed.Detail,
      (if detail then r.loadDetail.map some else .ok none) = .ok details ∧
        ∃ status, Status.load r.status = .ok status ∧
          ∃ created, Stamp.load r.createdAt = .ok created ∧
            ∃ updated, Stamp.load r.updatedAt = .ok updated ∧
              ⟨r.id, r.url, status, r.profile, created, updated, details⟩ = f := by
    cases detail <;>
      simp [FeedRow.load, bind_eq_ok, pure, Except.pure]
  rw [hload]
  constructor
  · rintro ⟨details, hdetails, status, hstatus, created, hcreated, updated, hupdated, rfl⟩
    exact ⟨rfl, rfl, Status.load_eq_ok.1 hstatus, rfl, Stamp.load_eq_ok.1 hcreated,
      Stamp.load_eq_ok.1 hupdated, hdetails⟩
  · intro h
    refine ⟨_, h.details, _, Status.load_eq_ok.2 h.status, _, Stamp.load_eq_ok.2 h.createdAt, _,
      Stamp.load_eq_ok.2 h.updatedAt, ?_⟩
    rw [← h.id, ← h.url, ← h.profile]

/-- The fingerprint is among the details. -/
theorem FeedRow.Loads.fingerprint {r : FeedRow} {f : Feed} (h : r.Loads true f) :
    f.detail.elim Fingerprint.empty (·.fingerprint) = r.fingerprint := by
  have hdetails := h.details
  rw [if_pos rfl, map_eq_ok] at hdetails
  obtain ⟨d, hd, hsome⟩ := hdetails
  rw [← hsome]
  simp only [FeedRow.loadDetail, bind_eq_ok] at hd
  obtain ⟨_, -, _, -, hd⟩ := hd
  exact Except.ok.inj hd ▸ rfl

/-! ## Subscriptions -/

/-- The value holds what the columns hold, with the value of its feed. -/
structure SubscriptionRow.Loads (detail : Bool) (row : SubscriptionRow × Option FeedRow)
    (a : Subscription) : Prop where
  id : a.id = row.1.id
  user : a.user = row.1.user
  feedId : a.feedId = row.1.feedId
  status : a.status.name = row.1.status
  url : a.url = row.1.url
  title : a.title = row.1.title
  storyOffset : a.storyOffset = row.1.storyOffset
  createdAt : Stamp.decode row.1.createdAt = .ok a.createdAt
  updatedAt : Stamp.decode row.1.updatedAt = .ok a.updatedAt
  feed : row.2.elim (a.feed = none) fun f => ∃ feed, f.Loads detail feed ∧ a.feed = some feed

theorem SubscriptionRow.load_eq_ok {detail : Bool} {row : SubscriptionRow × Option FeedRow}
    {a : Subscription} : SubscriptionRow.load detail row = .ok a ↔ Loads detail row a := by
  obtain ⟨r, f⟩ := row
  have hload : SubscriptionRow.load detail (r, f) = .ok a ↔ ∃ status,
      Status.load r.status = .ok status ∧ ∃ created, Stamp.load r.createdAt = .ok created ∧
        ∃ updated, Stamp.load r.updatedAt = .ok updated ∧ ∃ feed : Option Feed,
          (f.elim (feed = none) fun f => ∃ value, f.load detail = .ok value ∧ feed = some value) ∧
            ⟨r.id, r.user, r.feedId, status, r.url, r.title, r.storyOffset, created, updated,
              feed⟩ = a := by
    cases f with
    | none => simp [SubscriptionRow.load, bind_eq_ok, pure, Except.pure]
    | some f => simp [SubscriptionRow.load, bind_eq_ok, map_eq_ok, pure, Except.pure]
  rw [hload]
  have hfeed (feed : Option Feed) :
      (f.elim (feed = none) fun f => ∃ value, f.load detail = .ok value ∧ feed = some value) ↔
        f.elim (feed = none) fun f => ∃ value, f.Loads detail value ∧ feed = some value := by
    cases f with
    | none => rfl
    | some f => simp only [Option.elim, FeedRow.load_eq_ok]
  constructor
  · rintro ⟨status, hstatus, created, hcreated, updated, hupdated, feed, hvalue, rfl⟩
    exact ⟨rfl, rfl, rfl, Status.load_eq_ok.1 hstatus, rfl, rfl, rfl, Stamp.load_eq_ok.1 hcreated,
      Stamp.load_eq_ok.1 hupdated, (hfeed feed).1 hvalue⟩
  · intro h
    refine ⟨_, Status.load_eq_ok.2 h.status, _, Stamp.load_eq_ok.2 h.createdAt, _,
      Stamp.load_eq_ok.2 h.updatedAt, a.feed, (hfeed a.feed).2 h.feed, ?_⟩
    obtain ⟨hid, huser, hfeed, -, hurl, htitle, hoffset⟩ := h
    simp only at hid huser hfeed hurl htitle hoffset
    rw [← hid, ← huser, ← hfeed, ← hurl, ← htitle, ← hoffset]

/-! ## What does not load -/

/-- An error that a column gives. -/
def StoreError.IsUnreadable : StoreError → Prop
  | .unknownStatus _ => True
  | .badStamp _ => True
  | .badHeaders => True
  | _ => False

/-- Whatever goes wrong in one part of a load or in the rest of it is about a column. -/
theorem StoreError.isUnreadable_bind {α β : Type} {x : Except StoreError α}
    {f : α → Except StoreError β} (hx : ∀ e, x = .error e → e.IsUnreadable)
    (hf : ∀ a e, f a = .error e → e.IsUnreadable) (e : StoreError) (h : (x >>= f) = .error e) :
    e.IsUnreadable := by
  cases x with
  | error e' => exact hx e (by simpa [bind, Except.bind] using h)
  | ok a => exact hf a e h

theorem StoreError.isUnreadable_map {α β : Type} {x : Except StoreError α} {g : α → β}
    (hx : ∀ e, x = .error e → e.IsUnreadable) (e : StoreError) (h : x.map g = .error e) :
    e.IsUnreadable := by
  cases x with
  | error e' => exact hx e (by simpa [Except.map] using h)
  | ok a => cases h

theorem Stamp.unreadable_of_load {text : String} (e : StoreError)
    (h : Stamp.load text = .error e) : e.IsUnreadable := by
  unfold Stamp.load at h
  split at h
  · cases h
  · exact Except.error.inj h ▸ True.intro

theorem Stamp.unreadable_of_loadOptional {text : Option String} (e : StoreError)
    (h : Stamp.loadOptional text = .error e) : e.IsUnreadable := by
  cases text with
  | none => cases h
  | some text => exact StoreError.isUnreadable_map Stamp.unreadable_of_load e h

theorem Status.unreadable_of_load {name : String} (e : StoreError)
    (h : Status.load name = .error e) : e.IsUnreadable := by
  unfold Status.load at h
  split at h
  · cases h
  · exact Except.error.inj h ▸ True.intro

theorem FeedRow.unreadable_of_loadDetail {r : FeedRow} (e : StoreError)
    (h : r.loadDetail = .error e) : e.IsUnreadable := by
  refine StoreError.isUnreadable_bind Stamp.unreadable_of_loadOptional (fun checkedAt => ?_) e h
  refine StoreError.isUnreadable_bind Stamp.unreadable_of_loadOptional fun syncedAt e h => ?_
  cases h

/-- A feed that does not load has a column that cannot be read. -/
theorem FeedRow.unreadable_of_load {detail : Bool} {r : FeedRow} (e : StoreError)
    (h : r.load detail = .error e) : e.IsUnreadable := by
  have columns (details : Option Feed.Detail) (e : StoreError) (h : (do
      let status ← Status.load r.status
      let createdAt ← Stamp.load r.createdAt
      let updatedAt ← Stamp.load r.updatedAt
      pure ⟨r.id, r.url, status, r.profile, createdAt, updatedAt, details⟩ :
        Except StoreError Feed) = .error e) : e.IsUnreadable := by
    refine StoreError.isUnreadable_bind Status.unreadable_of_load (fun status => ?_) e h
    refine StoreError.isUnreadable_bind Stamp.unreadable_of_load fun createdAt => ?_
    refine StoreError.isUnreadable_bind Stamp.unreadable_of_load fun updatedAt e h => ?_
    cases h
  cases detail with
  | true =>
    have hdetail (e : StoreError) (h : r.loadDetail.map some = .error e) : e.IsUnreadable :=
      StoreError.isUnreadable_map FeedRow.unreadable_of_loadDetail e h
    exact StoreError.isUnreadable_bind hdetail columns e h
  | false => exact columns none e h

/-! ## Everything loads -/

namespace Store

/-- Where every column reads back no instant is out of the years. -/
theorem inYears_of_decode {s : Store} (h : ∀ text ∈ s.stamps, (Stamp.decode text).toBool = true) :
    s.InYears := by
  intro t ht
  cases hdecode : Stamp.decode t.stamp with
  | error e =>
    have := h _ ht
    rw [hdecode] at this
    cases this
  | ok u => exact (Instant.inYears_of_decode hdecode).1

theorem InYears.decode {s : Store} (hy : s.InYears) (h : s.Valid) {text : String}
    (htext : text ∈ s.stamps) : ∃ t, Stamp.decode text = .ok t := by
  obtain ⟨t, ht⟩ := h.written text htext
  exact ⟨t, ht.decode (hy t (ht.2 ▸ htext))⟩

theorem InYears.decodeOptional {s : Store} (hy : s.InYears) (h : s.Valid) {text : Option String}
    (htext : ∀ t ∈ text, t ∈ s.stamps) : ∃ t, Stamp.loadOptional text = .ok t := by
  cases text with
  | none => exact ⟨none, rfl⟩
  | some text =>
    obtain ⟨t, ht⟩ := hy.decode h (htext text rfl)
    exact ⟨some t, by simp [Stamp.loadOptional, Stamp.load_eq_ok.2 ht, Except.map]⟩

namespace Valid

variable {s : Store}

theorem feed_loads (h : s.Valid) (hy : s.InYears) (detail : Bool) {r : FeedRow}
    (hr : r ∈ s.feeds) : ∃ f, r.load detail = .ok f := by
  have hstamp : ∀ text ∈ r.stamps, text ∈ s.stamps :=
    fun text ht => mem_stamps.2 (.inl ⟨r, hr, ht⟩)
  obtain ⟨status, hstatus⟩ := h.feedStatus r hr
  obtain ⟨created, hcreated⟩ := hy.decode h (hstamp r.createdAt (by simp [FeedRow.stamps]))
  obtain ⟨updated, hupdated⟩ := hy.decode h (hstamp r.updatedAt (by simp [FeedRow.stamps]))
  obtain ⟨checked, hchecked⟩ := hy.decodeOptional h fun text (ht : text ∈ r.checkedAt) =>
    hstamp text (by simp [FeedRow.stamps, Option.mem_def.1 ht])
  obtain ⟨synced, hsynced⟩ := hy.decodeOptional h fun text (ht : text ∈ r.syncedAt) =>
    hstamp text (by simp [FeedRow.stamps, Option.mem_def.1 ht])
  have hdetail : ∃ d, r.loadDetail = .ok d :=
    ⟨_, bind_eq_ok.2 ⟨checked, hchecked, bind_eq_ok.2 ⟨synced, hsynced, rfl⟩⟩⟩
  obtain ⟨d, hd⟩ := hdetail
  refine ⟨⟨r.id, r.url, status, r.profile, created, updated, if detail then some d else none⟩,
    FeedRow.load_eq_ok.2 ⟨rfl, rfl, hstatus.symm, rfl, hcreated, hupdated, ?_⟩⟩
  cases detail with
  | true => simp [hd, Except.map]
  | false => rfl

theorem mapping_loads (h : s.Valid) (hy : s.InYears) {m : MappingRow} (hm : m ∈ s.mappings) :
    ∃ mapping, m.load = .ok mapping := by
  obtain ⟨created, hcreated⟩ :=
    hy.decode h (mem_stamps.2 (.inr (.inr (.inl ⟨m, hm, rfl⟩))))
  exact ⟨_, bind_eq_ok.2 ⟨created, Stamp.load_eq_ok.2 hcreated, rfl⟩⟩

theorem subscription_loads (h : s.Valid) (hy : s.InYears) (detail : Bool) {r : SubscriptionRow}
    (hr : r ∈ s.subscriptions) :
    ∃ a, SubscriptionRow.load detail (s.withFeed r) = .ok a := by
  have hstamp : ∀ text ∈ r.stamps, text ∈ s.stamps :=
    fun text ht => mem_stamps.2 (.inr (.inr (.inr ⟨r, hr, ht⟩)))
  obtain ⟨status, hstatus⟩ := h.subscriptionStatus r hr
  obtain ⟨created, hcreated⟩ := hy.decode h (hstamp r.createdAt (by simp [SubscriptionRow.stamps]))
  obtain ⟨updated, hupdated⟩ := hy.decode h (hstamp r.updatedAt (by simp [SubscriptionRow.stamps]))
  have hfeed : ∃ feed : Option Feed, (s.withFeed r).2.elim (feed = none) fun f =>
      ∃ value, f.Loads detail value ∧ feed = some value := by
    cases hf : (s.withFeed r).2 with
    | none => exact ⟨none, rfl⟩
    | some f =>
      obtain ⟨k, -, hk⟩ := Option.bind_eq_some_iff.1 hf
      obtain ⟨value, hvalue⟩ := h.feed_loads hy detail (mem_of_feed? hk).1
      exact ⟨some value, value, FeedRow.load_eq_ok.1 hvalue, rfl⟩
  obtain ⟨feed, hfeed⟩ := hfeed
  exact ⟨⟨r.id, r.user, r.feedId, status, r.url, r.title, r.storyOffset, created, updated, feed⟩,
    SubscriptionRow.load_eq_ok.2
      ⟨rfl, rfl, rfl, hstatus.symm, rfl, rfl, rfl, hcreated, hupdated, hfeed⟩⟩

/-- Rows of the store load together. -/
theorem subscriptions_load (h : s.Valid) (hy : s.InYears) (detail : Bool)
    {rows : List SubscriptionRow} (hrows : ∀ r ∈ rows, r ∈ s.subscriptions) :
    ∃ all, (rows.map s.withFeed).mapM (SubscriptionRow.load detail) = .ok all := by
  have hload : ∀ row ∈ rows.map s.withFeed, ∃ a, SubscriptionRow.load detail row = .ok a := by
    intro row hrow
    obtain ⟨r, hr, rfl⟩ := List.mem_map.1 hrow
    exact h.subscription_loads hy detail (hrows r hr)
  obtain ⟨all, hall, -⟩ := exists_mapM_eq_ok hload
  exact ⟨all, hall⟩

end Valid

end Store

end Syndication
