import Mathlib
import Syndication.Store.Crawl
import Syndication.Store.Insertion
/-!
# Rows found and changed

What a look-up finds, what an edit leaves, and what becomes of the subscriptions to a feed in a
transition. Where the keys of a table are distinct a look-up finds the one row with the key.
-/

namespace Syndication

/-! ## Keyed rows -/

section Keys

variable {α κ : Type} [DecidableEq κ] {key : α → κ} {rows : List α}

theorem find?_key_of_mem (hkeys : (rows.map key).Nodup) {row : α} (hrow : row ∈ rows) :
    (rows.find? fun x => key x = key row) = some row := by
  obtain ⟨found, hfound⟩ : ∃ found, (rows.find? fun x => key x = key row) = some found :=
    Option.isSome_iff_exists.1 (List.find?_isSome.2 ⟨row, hrow, by simp⟩)
  have hkey : key found = key row := by simpa using List.find?_some hfound
  rw [hfound, List.inj_on_of_nodup_map hkeys (List.mem_of_find?_eq_some hfound) hrow hkey]

theorem find?_key_eq_some (hkeys : (rows.map key).Nodup) {k : κ} {row : α} :
    (rows.find? fun x => key x = k) = some row ↔ row ∈ rows ∧ key row = k := by
  refine ⟨fun h => ⟨List.mem_of_find?_eq_some h, by simpa using List.find?_some h⟩, ?_⟩
  rintro ⟨hrow, rfl⟩
  exact find?_key_of_mem hkeys hrow

theorem map_key_edit (key : α → κ) (k : κ) {edit : α → α} (hedit : ∀ x, key (edit x) = key x) :
    (rows.map fun x => if key x = k then edit x else x).map key = rows.map key := by
  rw [List.map_map]
  refine List.map_congr_left fun x _ => ?_
  simp only [Function.comp]
  split
  · exact hedit x
  · rfl

/-- An edit that keeps keys is seen by whoever looks the row up. -/
theorem find?_key_edit (key : α → κ) (k k' : κ) {edit : α → α} (hedit : ∀ x, key (edit x) = key x) :
    (rows.map fun x => if key x = k then edit x else x).find? (fun x => key x = k') =
      (rows.find? fun x => key x = k').map fun x => if key x = k then edit x else x := by
  rw [List.find?_map]
  congr 2
  funext x
  simp only [Function.comp]
  split
  · rw [hedit]
  · rfl

/-- In a list of distinct keys with their values a look-up finds the value of a key. -/
theorem lookup_eq_some {l : List (κ × α)} (hkeys : (l.map (·.1)).Nodup) {k : κ} {v : α} :
    l.lookup k = some v ↔ (k, v) ∈ l := by
  induction l with
  | nil => simp
  | cons p l ih =>
    obtain ⟨k', v'⟩ := p
    rw [List.map_cons, List.nodup_cons] at hkeys
    by_cases hk : k = k'
    · obtain rfl := hk
      have hother : (k, v) ∉ l := fun hmem => hkeys.1 (List.mem_map.2 ⟨_, hmem, rfl⟩)
      simp [hother, eq_comm]
    · have hne : (k == k') = false := by simpa using hk
      simp [List.lookup_cons, hne, ih hkeys.2, hk]

end Keys

/-! ## Reading and decoding lists -/

theorem mapM_eq_ok {ε α β : Type} {f : α → Except ε β} {l : List α} {l' : List β} :
    l.mapM f = .ok l' ↔ List.Forall₂ (fun a b => f a = .ok b) l l' := by
  induction l generalizing l' with
  | nil =>
    constructor
    · intro h
      obtain rfl : l' = [] := (Except.ok.inj h).symm
      exact .nil
    · intro h
      cases h
      rfl
  | cons a l ih =>
    rw [List.mapM_cons]
    constructor
    · intro h
      cases ha : f a with
      | error e => simp [ha, bind, Except.bind] at h
      | ok b =>
        cases hl : l.mapM f with
        | error e => simp [ha, hl, bind, Except.bind] at h
        | ok bs =>
          simp only [ha, hl, bind, Except.bind, pure, Except.pure, Except.ok.injEq] at h
          exact h ▸ .cons ha (ih.1 hl)
    · intro h
      cases h with
      | cons ha hl => simp [ha, ih.2 hl, bind, Except.bind, pure, Except.pure]

/-- A function gives the list that another has given exactly if it agrees with it on every entry. -/
theorem mapM_eq_ok_iff_eq {ε α β : Type} {f g : α → Except ε β} {l : List α} {l' : List β}
    (h : l.mapM f = .ok l') : l.mapM g = .ok l' ↔ ∀ a ∈ l, g a = f a := by
  rw [mapM_eq_ok] at h ⊢
  induction h with
  | nil => simp
  | cons hab _ ih => simp [ih, hab]

theorem exists_mapM_eq_ok {ε α β : Type} {f : α → Except ε β} {l : List α}
    (h : ∀ a ∈ l, ∃ b, f a = .ok b) :
    ∃ l', l.mapM f = .ok l' ∧ List.Forall₂ (fun a b => f a = .ok b) l l' := by
  induction l with
  | nil => exact ⟨[], rfl, .nil⟩
  | cons a l ih =>
    obtain ⟨b, hb⟩ := h a List.mem_cons_self
    obtain ⟨l', -, hl'⟩ := ih fun x hx => h x (List.mem_cons_of_mem _ hx)
    have hall : List.Forall₂ (fun a b => f a = .ok b) (a :: l) (b :: l') := .cons hb hl'
    exact ⟨b :: l', mapM_eq_ok.2 hall, hall⟩

theorem forall₂_left {α β : Type} {R : α → β → Prop} {l : List α} {l' : List β}
    (h : List.Forall₂ R l l') {a : α} (ha : a ∈ l) : ∃ b ∈ l', R a b := by
  induction h with
  | nil => cases ha
  | cons hab _ ih =>
    rcases List.mem_cons.1 ha with rfl | ha
    · exact ⟨_, List.mem_cons_self, hab⟩
    · obtain ⟨b, hb, hab⟩ := ih ha
      exact ⟨b, List.mem_cons_of_mem _ hb, hab⟩

theorem forall₂_right {α β : Type} {R : α → β → Prop} {l : List α} {l' : List β}
    (h : List.Forall₂ R l l') {b : β} (hb : b ∈ l') : ∃ a ∈ l, R a b :=
  forall₂_left h.flip hb

theorem map_eq_of_forall₂ {α β γ : Type} {f : α → γ} {g : β → γ} {l : List α} {l' : List β}
    (h : List.Forall₂ (fun a b => g b = f a) l l') : l'.map g = l.map f := by
  induction h with
  | nil => rfl
  | cons hab _ ih => rw [List.map_cons, List.map_cons, hab, ih]

namespace Store

/-! ## Ids -/

theorem le_foldl_max (ids : List Int) (n : Int) :
    n ≤ ids.foldl max n ∧ ∀ id ∈ ids, id ≤ ids.foldl max n := by
  induction ids generalizing n with
  | nil => simp
  | cons id ids ih =>
    obtain ⟨hn, hids⟩ := ih (max n id)
    refine ⟨by simp only [List.foldl_cons]; omega, fun x hx => ?_⟩
    rcases List.mem_cons.1 hx with rfl | hx
    · simp only [List.foldl_cons]
      omega
    · exact hids x hx

theorem lt_nextId {ids : List Int} {id : Int} (h : id ∈ ids) : id < nextId ids := by
  have := (le_foldl_max ids 0).2 id h
  unfold nextId
  omega

/-! ## Look-ups -/

theorem mem_of_feed? {s : Store} {id : Int} {row : FeedRow} (h : s.feed? id = some row) :
    row ∈ s.feeds ∧ row.id = id :=
  ⟨List.mem_of_find?_eq_some h, by simpa using List.find?_some h⟩

theorem mem_of_feedAt? {s : Store} {url : String} {row : FeedRow} (h : s.feedAt? url = some row) :
    row ∈ s.feeds ∧ row.url = url :=
  ⟨List.mem_of_find?_eq_some h, by simpa using List.find?_some h⟩

theorem mem_of_subscription? {s : Store} {id : Int} {row : SubscriptionRow}
    (h : s.subscription? id = some row) : row ∈ s.subscriptions ∧ row.id = id :=
  ⟨List.mem_of_find?_eq_some h, by simpa using List.find?_some h⟩

theorem mem_of_holder? {s : Store} {user feed : Int} {row : SubscriptionRow}
    (h : s.holder? user feed = some row) :
    row ∈ s.subscriptions ∧ row.user = user ∧ row.feedId = some feed :=
  ⟨List.mem_of_find?_eq_some h, by simpa using List.find?_some h⟩

theorem holder?_eq_none {s : Store} {user feed : Int} (h : s.holder? user feed = none)
    {row : SubscriptionRow} (hrow : row ∈ s.subscriptions) (huser : row.user = user) :
    row.feedId ≠ some feed := by
  have := List.find?_eq_none.1 h row hrow
  simpa [huser] using this

theorem mem_visible {s : Store} {user : Int} {showPending : Bool} {r : SubscriptionRow} :
    r ∈ s.visible user showPending ↔ r ∈ s.subscriptions ∧ r.user = user ∧
      (showPending = true ∨ r.status ≠ Status.pending.name) := by
  simp [visible, List.mem_mergeSort]

/-! ## Following a transition -/

end Store

/-- What becomes of a subscription when its feed moves: nothing, or its status follows and its
clock moves on. -/
theorem SubscriptionRow.follow_cases {feedId : Int} {status : Status} {now : Instant} {force : Bool}
    {r r' : SubscriptionRow} (h : r.follow feedId status now force = .ok r') :
    (r' = r ∧ (r.feedId = some feedId → force = false ∧ r.status = status.name)) ∨
      r.feedId = some feedId ∧ ∃ previous t, Stamp.decode r.updatedAt = .ok previous ∧
        Instant.advance? previous now = some t ∧
        r' = { r with status := status.name, updatedAt := t.stamp } := by
  unfold SubscriptionRow.follow at h
  split at h
  · next hcond =>
    split at h
    · cases h
    · next previous hprevious =>
      split at h
      · next t ht => exact .inr ⟨hcond.1, previous, t, hprevious, ht, (Except.ok.inj h).symm⟩
      · cases h
  · next hcond =>
    refine .inl ⟨(Except.ok.inj h).symm, fun hfeed => ?_⟩
    simp only [hfeed, true_and, not_or, Bool.not_eq_true, ne_eq, Decidable.not_not] at hcond
    exact hcond

namespace Store

/-- A transition that changes the store has found the feed in a status that admits it. -/
theorem moveFeed_cases (s : Store) (id : Int) (t : Transition) :
    ((s.moveFeed id t).1 ≠ .moved ∧ (s.moveFeed id t).2 = s) ∨
      ∃ row subscriptions, s.feed? id = some row ∧
        row.status ∈ t.target.predecessors.map Status.name ∧
        s.followers id t = .ok subscriptions ∧
        s.moveFeed id t = (.moved, { s.editFeed id (·.apply t) with subscriptions }) := by
  unfold moveFeed
  split
  · exact .inl ⟨by simp, rfl⟩
  · next row hrow =>
    split
    · next hstatus =>
      split
      · next subscriptions hfollow => exact .inr ⟨row, subscriptions, hrow, hstatus, hfollow, rfl⟩
      · exact .inl ⟨by simp, rfl⟩
    · exact .inl ⟨by simp, rfl⟩

/-! ## Inserting -/

/-- A row that can be inserted stands for the row that holds its feed, or it is new: then it names
no feed, or one that exists and that its user does not hold. -/
theorem insertRow_cases {stamp : String} {s t : Store} {row : Planned} {o : Inserted}
    (h : insertRow stamp s row = some (o, t)) :
    (∃ f held, row.feedId = some f ∧ s.holder? row.user f = some held ∧
        o = .existing held.id f ∧ t = s) ∨
      (∀ f, row.feedId = some f → (∃ r ∈ s.feeds, r.id = f) ∧ s.holder? row.user f = none) ∧
        o = .new (s.lastSubscriptionId + 1) ∧ t = s.addSubscription row stamp := by
  unfold insertRow at h
  split at h
  · next hfeed =>
    obtain ⟨rfl, rfl⟩ := Prod.mk.inj (Option.some.inj h)
    exact .inr ⟨by simp [hfeed], rfl, rfl⟩
  · next f hfeed =>
    split at h
    · next held hheld =>
      obtain ⟨rfl, rfl⟩ := Prod.mk.inj (Option.some.inj h)
      exact .inl ⟨f, held, hfeed, hheld, rfl, rfl⟩
    · next hheld =>
      split at h
      · next hknown =>
        obtain ⟨rfl, rfl⟩ := Prod.mk.inj (Option.some.inj h)
        obtain ⟨r, hr⟩ := Option.isSome_iff_exists.1 hknown
        refine .inr ⟨fun f' hf' => ?_, rfl, rfl⟩
        obtain rfl := Option.some.inj (hfeed.symm.trans hf')
        exact ⟨⟨r, mem_of_feed? hr⟩, hheld⟩
      · cases h

/-- What holds between the store before and after any row of a batch, and can be chained, holds
between the store before and after the batch. -/
theorem insertBatch_induction {stamp : String} {P : Store → Store → Prop} (refl : ∀ s, P s s)
    (trans : ∀ s t u, P s t → P t u → P s u) (rows : List Planned) (size : Nat)
    (row : ∀ r ∈ rows, ∀ s o t, insertRow stamp s r = some (o, t) → P s t) (s : Store) :
    P s (s.insertBatch rows size stamp).2 := by
  have chunk : ∀ rows' : List Planned, rows' ⊆ rows → ∀ s o t,
      insertChunk stamp s rows' = some (o, t) → P s t := by
    intro rows'
    induction rows' with
    | nil =>
      intro _ s o t h
      obtain ⟨-, rfl⟩ := Prod.mk.inj (Option.some.inj h)
      exact refl _
    | cons r rest ih =>
      intro hsub s o t h
      simp only [insertChunk, Option.bind_eq_bind, Option.bind_eq_some_iff] at h
      obtain ⟨⟨o₁, s₁⟩, h₁, ⟨o₂, s₂⟩, h₂, h⟩ := h
      obtain ⟨-, rfl⟩ := Prod.mk.inj (Option.some.inj h)
      exact trans _ _ _ (row r (hsub List.mem_cons_self) _ _ _ h₁)
        (ih (fun x hx => hsub (List.mem_cons_of_mem _ hx)) _ _ _ h₂)
  have chunks : ∀ done s rows', rows' ⊆ rows → P s (insertChunks stamp size done s rows').2 := by
    intro done s rows'
    fun_induction insertChunks stamp size done s rows' with
    | case1 done s => exact fun _ => refl _
    | case2 done s r rest outcomes s' h ih =>
      intro hsub
      refine trans _ _ _ (chunk _ (fun x hx => hsub ?_) _ _ _ h)
        (ih fun x hx => hsub (List.mem_cons_of_mem _ (List.mem_of_mem_drop hx)))
      rcases List.mem_cons.1 hx with rfl | hx
      · exact List.mem_cons_self
      · exact List.mem_cons_of_mem _ (List.mem_of_mem_take hx)
    | case3 done s r rest h => exact fun _ => refl _
  exact chunks [] s rows fun _ h => h

end Store

/-- A planned row is for an address of the list, bound to the feed that it leads to. -/
theorem Planned.mem_listFrom {user : Int} {feedOf : String → Option Int} {seen : List String}
    {held : List Int} {urls : List String} {p : Planned}
    (h : p ∈ listFrom user feedOf seen held urls) :
    ∃ url ∈ urls, (∃ f, feedOf url = some f ∧ p = bound user f url) ∨ p = pending user url := by
  fun_induction listFrom user feedOf seen held urls with
  | case1 => cases h
  | case2 _ _ _ _ _ ih => exact List.exists_mem_cons_of_exists (ih h)
  | case3 _ _ _ _ _ _ _ _ ih => exact List.exists_mem_cons_of_exists (ih h)
  | case4 seen held url urls hseen feed hfeed hmem ih =>
    rcases List.mem_cons.1 h with rfl | h
    · exact ⟨url, List.mem_cons_self, .inl ⟨feed, hfeed, rfl⟩⟩
    · exact List.exists_mem_cons_of_exists (ih h)
  | case5 seen held url urls hseen hfeed ih =>
    rcases List.mem_cons.1 h with rfl | h
    · exact ⟨url, List.mem_cons_self, .inr rfl⟩
    · exact List.exists_mem_cons_of_exists (ih h)

end Syndication
