import Syndication.Proofs.Program.System
import Syndication.Proofs.Store.Step
/-!
# Crawls in turn

However many crawlers race, and whatever else runs: the transitions of a feed that are committed
take turns, a crawl begins and then it finishes or fails, and the feed's status tells which of them
was the last (`System.InTurn`, kept by one step and so by every run). A request that reports an
invalid transition has committed none: `System.crawl_state_machine`.
-/

namespace Syndication

/-! ## Transitions that take turns -/

namespace Transition

/-- A crawl begins, then it finishes or fails, then one begins again. -/
def TakeTurns (moves : List Transition) : Prop :=
  ∀ n t, moves[n]? = some t → (t.target = .updating ↔ n % 2 = 0)

/-- The status in which transitions leave a feed that was pending. -/
def lastTarget (moves : List Transition) : Status := (moves.getLast?.map target).getD .pending

/-- What the status of a feed tells of its transitions. -/
structure Leave (moves : List Transition) (status : String) : Prop where
  pending : status = Status.pending.name ↔ ∀ t ∈ moves, t.target ≠ .updating
  updating : status = Status.updating.name ↔ ∃ t, moves.getLast? = some t ∧ t.target = .updating
  ready : status = Status.ready.name ↔ ∃ t, moves.getLast? = some t ∧ t.target = .ready
  error : status = Status.error.name ↔ ∃ t, moves.getLast? = some t ∧ t.target = .error

variable {moves : List Transition} {t : Transition}

@[simp] theorem lastTarget_nil : lastTarget [] = .pending := rfl

@[simp] theorem lastTarget_concat : lastTarget (moves ++ [t]) = t.target := by
  simp [lastTarget]

/-- A transition that the last status admits takes its turn. -/
theorem TakeTurns.concat (h : TakeTurns moves) (ht : (lastTarget moves).CanBecome t.target) :
    TakeTurns (moves ++ [t]) := by
  have turn : t.target = .updating ↔ moves.length % 2 = 0 := by
    rcases List.eq_nil_or_concat' moves with rfl | ⟨earlier, last, rfl⟩
    · rw [lastTarget_nil] at ht
      cases t <;> simp_all [Status.CanBecome, target, Status.predecessors]
    · have hlast := h earlier.length last (by simp)
      have hadmits : t.target = .updating ↔ last.target ≠ .updating := by
        rw [lastTarget_concat] at ht
        cases t <;> cases last <;> simp_all [Status.CanBecome, target, Status.predecessors]
      rw [hadmits, ne_eq, hlast, List.length_append, List.length_singleton]
      omega
  intro n u hu
  rcases Nat.lt_or_ge n moves.length with hlt | hge
  · exact h n u (by rwa [List.getElem?_append_left hlt] at hu)
  · rw [List.getElem?_append_right hge] at hu
    obtain rfl := List.mem_singleton.1 (List.mem_of_getElem? hu)
    have hn : n = moves.length := by
      have := (List.getElem?_eq_some_iff.1 hu).1
      simp only [List.length_singleton] at this
      omega
    rw [hn, turn]

/-- The status that transitions in turn leave tells what they were. -/
theorem TakeTurns.leave (h : TakeTurns moves) : Leave moves (lastTarget moves).name := by
  have last (status : Status) (hstatus : status ≠ .pending) :
      (lastTarget moves).name = status.name ↔
        ∃ t, moves.getLast? = some t ∧ t.target = status := by
    unfold lastTarget
    cases moves.getLast? with
    | none => exact ⟨fun heq => absurd (Status.name_injective heq).symm hstatus, by simp⟩
    | some t => exact ⟨fun heq => ⟨t, rfl, Status.name_injective heq⟩, fun ⟨u, hu, hlast⟩ => by
      rw [Option.map_some, Option.some.inj hu, hlast]; rfl⟩
  refine ⟨?_, last _ (by simp), last _ (by simp), last _ (by simp)⟩
  cases moves with
  | nil => simp
  | cons first rest =>
    have hbegins : first.target = .updating := (h 0 first rfl).2 rfl
    refine ⟨fun heq => ?_, fun hnone => absurd hbegins (hnone first List.mem_cons_self)⟩
    obtain ⟨u, hu⟩ :=
      Option.isSome_iff_exists.1 (List.getLast?_isSome.2 (List.cons_ne_nil first rest))
    rw [lastTarget, hu] at heq
    exact absurd (Status.name_injective heq) u.target_ne_pending

end Transition

/-! ## What a run commits -/

/-- A transition of a feed that a step has committed, with the place of the request. -/
structure Commit where
  place : Nat
  feed : Int
  transition : Transition

/-- The transitions of one feed. -/
def Commit.ofFeed (id : Int) (log : List Commit) : List Transition :=
  (log.filter fun c => c.feed = id).map (·.transition)

theorem Commit.ofFeed_append (id : Int) (log log' : List Commit) :
    ofFeed id (log ++ log') = ofFeed id log ++ ofFeed id log' := by
  simp [ofFeed]

namespace System

/-- The transition that a step commits, if it commits one. -/
def commit? (x : System) : Action → Option Commit
  | .call i =>
    match x.running[i]? with
    | some ⟨_, _, .call c _⟩ => (c.moved? x.store).map fun (feed, t) => ⟨i, feed, t⟩
    | _ => none
  | _ => none

theorem commit?_call {x : System} {i : Nat} {request : Request} {past : List Event} {c : Call}
    {next : c.Answer → Program (Except StoreError Reply)}
    (hi : x.running[i]? = some ⟨request, past, .call c next⟩) :
    x.commit? (.call i) = (c.moved? x.store).map fun (feed, t) => ⟨i, feed, t⟩ := by
  simp only [commit?, hi]

/-- What a step commits, the request at its place is about to do. -/
theorem next_of_commit? {x : System} {a : Action} {c : Commit} (h : x.commit? a = some c) :
    a = .call c.place ∧ ∃ request past next,
      x.running[c.place]? = some ⟨request, past, .call (.moveFeed c.feed c.transition) next⟩ := by
  unfold commit? at h
  split at h
  · split at h
    · next hi =>
      obtain ⟨⟨id, t⟩, hmoves, rfl⟩ := Option.map_eq_some_iff.1 h
      obtain ⟨rfl, -⟩ := Call.moved?_eq_some.1 hmoves
      exact ⟨rfl, _, _, _, hi⟩
    · cases h
  · cases h

/-- The transitions that steps commit, in their order. -/
def commits (x : System) : List Action → List Commit
  | [] => []
  | a :: actions => (x.commit? a).toList ++ (x.act a).elim [] fun y => y.commits actions

/-- The state of crawls after a run that has committed `log`. -/
structure InTurn (x : System) (log : List Commit) : Prop where
  turns : ∀ id, Transition.TakeTurns (Commit.ofFeed id log)
  status : ∀ row ∈ x.store.feeds,
    row.status = (Transition.lastTarget (Commit.ofFeed row.id log)).name
  /-- What has moved exists. -/
  known : ∀ c ∈ log, ∃ row ∈ x.store.feeds, row.id = c.feed
  /-- The request that has committed a transition is one of a crawl, and has seen it succeed. -/
  seen : ∀ c ∈ log, ∃ request past rest, x.running[c.place]? = some ⟨request, past, rest⟩ ∧
    request.crawl? = some (c.feed, c.transition.target) ∧
    .called (.moveFeed c.feed c.transition) .moved ∈ past

theorem inTurn_initial : initial.InTurn [] where
  turns id n t h := by simp [Commit.ofFeed] at h
  status row hrow := by simp [initial, Store.empty] at hrow
  known c hc := by cases hc
  seen c hc := by cases hc

namespace InTurn

variable {x y : System} {log : List Commit} {a : Action}

/-- What has been committed stays seen. -/
theorem seen_act (h : x.InTurn log) (hy : x.act a = some y) : ∀ c ∈ log,
    ∃ request past rest, y.running[c.place]? = some ⟨request, past, rest⟩ ∧
      request.crawl? = some (c.feed, c.transition.target) ∧
      .called (.moveFeed c.feed c.transition) .moved ∈ past := by
  intro c hc
  obtain ⟨request, past, rest, hi, hcrawl, hpast⟩ := h.seen c hc
  obtain ⟨later, rest', hi'⟩ := running_act hy hi
  exact ⟨request, past ++ later, rest', hi', hcrawl, List.mem_append_left _ hpast⟩

/-- A step that leaves the feeds, but for new ones, keeps their crawls in turn. -/
theorem of_created (h : x.InTurn log) (hy : x.act a = some y) (hvalid : y.store.Valid)
    {created : List FeedRow} (hfeeds : y.store.feeds = x.store.feeds ++ created)
    (hpending : ∀ f ∈ created, f.status = Status.pending.name) : y.InTurn log where
  turns := h.turns
  status row hrow := by
    rcases List.mem_append.1 (hfeeds ▸ hrow) with hold | hnew
    · exact h.status row hold
    · -- nothing has been committed for a feed that was not there
      have hnone : Commit.ofFeed row.id log = [] := by
        refine List.map_eq_nil_iff.2 (List.filter_eq_nil_iff.2 fun c hc hid => ?_)
        obtain ⟨row', hrow', hid'⟩ := h.known c hc
        have hids := hvalid.feedIds
        rw [hfeeds, List.map_append] at hids
        exact List.disjoint_of_nodup_append hids (List.mem_map_of_mem hrow')
          (by rw [hid', of_decide_eq_true hid]; exact List.mem_map_of_mem hnew)
      rw [hnone, hpending row hnew, Transition.lastTarget_nil]
  known c hc := by
    obtain ⟨row, hrow, hid⟩ := h.known c hc
    exact ⟨row, hfeeds ▸ List.mem_append_left _ hrow, hid⟩
  seen := h.seen_act hy

/-- A step that moves a feed takes its turn. -/
theorem of_moved (h : x.InTurn log) (hx : x.Sound) {i : Nat} {request : Request}
    {past : List Event} {id : Int} {t : Transition}
    {next : Moved → Program (Except StoreError Reply)}
    (hi : x.running[i]? = some ⟨request, past, .call (.moveFeed id t) next⟩)
    (hmoved : (Call.moveFeed id t).moved? x.store = some (id, t))
    (hy : x.act (.call i) = some y) : y.InTurn (log ++ [⟨i, id, t⟩]) := by
  obtain ⟨⟨row, hrow, hstatus⟩, hfeeds⟩ := Call.feeds_run_of_moved hmoved
  obtain ⟨hmem, hid⟩ := Store.mem_of_feed? hrow
  have hy' := Option.some.inj (hy.symm.trans (act_eq_some.2 (.call hi)))
  have hfeeds' : y.store.feeds = (x.store.editFeed id (·.apply t)).feeds :=
    (congrArg (fun z : System => z.store.feeds) hy').trans hfeeds
  have hadmits : (Transition.lastTarget (Commit.ofFeed id log)).CanBecome t.target := by
    rw [h.status row hmem, hid] at hstatus
    obtain ⟨status, hpredecessor, hname⟩ := List.mem_map.1 hstatus
    exact Status.name_injective hname ▸ hpredecessor
  have hlog (k : Int) : Commit.ofFeed k (log ++ [⟨i, id, t⟩]) =
      if id = k then Commit.ofFeed k log ++ [t] else Commit.ofFeed k log := by
    rw [Commit.ofFeed_append]
    by_cases hk : id = k <;> simp [Commit.ofFeed, hk]
  refine ⟨fun k => ?_, fun row' hrow' => ?_, fun c hc => ?_, fun c hc => ?_⟩
  · rw [hlog]
    split
    · next hk => exact (h.turns k).concat (hk ▸ hadmits)
    · exact h.turns k
  · obtain ⟨f, hf, rfl⟩ := List.mem_map.1 (hfeeds' ▸ hrow')
    by_cases hfid : f.id = id
    · rw [if_pos hfid, FeedRow.status_apply, FeedRow.id_apply, hlog, if_pos hfid.symm,
        Transition.lastTarget_concat]
    · rw [if_neg hfid, hlog, if_neg (Ne.symm hfid)]
      exact h.status f hf
  · have hexists : ∃ f ∈ x.store.feeds, f.id = c.feed := by
      rcases List.mem_append.1 hc with hc | hc
      · exact h.known c hc
      · obtain rfl := List.mem_singleton.1 hc
        exact ⟨row, hmem, hid⟩
    obtain ⟨f, hf, hfid⟩ := hexists
    obtain ⟨f', hf', hfid', -⟩ := x.store.feeds_apply id t f hf
    exact ⟨f', hfeeds' ▸ hf', hfid'.trans hfid⟩
  · rcases List.mem_append.1 hc with hc | hc
    · exact h.seen_act hy c hc
    · obtain rfl := List.mem_singleton.1 hc
      have hanswer : ((Call.moveFeed id t).run x.store).1 = .moved :=
        (Call.moved?_eq_some.1 hmoved).2
      have hcrawl := (hx.running _ (List.mem_of_getElem? hi)).allowed.crawl
      rw [hy']
      refine ⟨request, _, _, List.getElem?_set_self (List.getElem?_eq_some_iff.1 hi).1, hcrawl, ?_⟩
      rw [hanswer]
      exact List.mem_append_right _ List.mem_cons_self

/-- **A step keeps crawls in turn**, together with what it commits. -/
theorem act (h : x.InTurn log) (hx : x.Sound) (ha : a.Proper) (hy : x.act a = some y) :
    y.InTurn (log ++ (x.commit? a).toList) := by
  have hvalid := (hx.act ha hy).valid
  have quiet (hnone : x.commit? a = none) (hfeeds : ∃ created,
      y.store.feeds = x.store.feeds ++ created ∧
        ∀ f ∈ created, f.status = Status.pending.name) :
      y.InTurn (log ++ (x.commit? a).toList) := by
    obtain ⟨created, hfeeds, hpending⟩ := hfeeds
    rw [hnone, Option.toList_none, List.append_nil]
    exact h.of_created hy hvalid hfeeds hpending
  have same {s : Store} : ∃ created, s.feeds = s.feeds ++ created ∧
      ∀ f ∈ created, f.status = Status.pending.name := ⟨[], by simp, by simp⟩
  cases act_eq_some.1 hy with
  | start request => exact quiet rfl same
  | read t hi => exact quiet rfl same
  | @call i request past c next hi =>
    have hcommit := commit?_call hi
    cases hmoved : c.moved? x.store with
    | none => exact quiet (by rw [hcommit, hmoved]; rfl) (Call.feeds_run hmoved)
    | some move =>
      obtain ⟨id, t⟩ := move
      obtain ⟨rfl, -⟩ := Call.moved?_eq_some.1 hmoved
      rw [hcommit, hmoved]
      exact h.of_moved hx hi hmoved hy

/-- A run keeps crawls in turn. -/
theorem play (h : x.InTurn log) (hx : x.Sound) {actions : List Action}
    (hproper : ∀ a ∈ actions, a.Proper) (hy : x.play actions = some y) :
    y.InTurn (log ++ x.commits actions) := by
  induction actions generalizing x log with
  | nil =>
    obtain rfl := Option.some.inj hy
    simpa [commits] using h
  | cons a actions ih =>
    obtain ⟨z, hz, hrest⟩ := Option.bind_eq_some_iff.1 hy
    have ha := hproper a List.mem_cons_self
    have hlater := ih (h.act hx ha hz) (hx.act ha hz)
      (fun b hb => hproper b (List.mem_cons_of_mem a hb)) hrest
    rwa [commits, hz, Option.elim_some, ← List.append_assoc]

end InTurn

end System

/-! ## Transitions that are not made -/

/-- A reading of the clock or a look at a feed; it leaves every store as it is. -/
def Event.IsLook : Event → Prop
  | .read _ => True
  | .called (.findFeed _) _ => True
  | _ => False

/-- Where a request to move a feed into `next` ends with an invalid transition, its last call was
the transition, after looks only, and the outcome of the call tells the error. -/
def Request.Refuses {α : Type} (id : Int) (next : Status) (past : List Event)
    (r : Except StoreError α) : Prop :=
  ∀ k current wanted, r = .error (.invalidTransition k current wanted) → ∃ looks t outcome,
    past = looks ++ [.called (.moveFeed id t) outcome] ∧ (∀ e ∈ looks, e.IsLook) ∧
      t.target = next ∧ (outcome = .refused current.name ∧ k = id ∧ wanted = next ∨
        outcome = .failed (.invalidTransition k current wanted))

namespace Request.Refuses

variable {α β : Type} {id : Int} {next : Status} {past : List Event}

theorem of_ne {e : StoreError} (h : ∀ k current wanted, e ≠ .invalidTransition k current wanted) :
    Refuses id next past (.error e : Except StoreError α) :=
  fun k current wanted heq => absurd (Except.error.inj heq) (h k current wanted)

theorem of_unreadable {e : StoreError} (he : e.IsUnreadable) :
    Refuses id next past (.error e : Except StoreError α) := by
  refine of_ne ?_
  rintro k current wanted rfl
  exact he

theorem of_load (detail : Bool) (row : FeedRow) : Refuses id next past (row.load detail) := by
  cases hload : row.load detail with
  | error e => exact of_unreadable (row.unreadable_of_load e hload)
  | ok feed => exact fun k current wanted h => by cases h

theorem map {r : Except StoreError α} (h : Refuses id next past r) (g : α → β) :
    Refuses id next past (r.map g) := by
  intro k current wanted heq
  cases r with
  | ok a => cases heq
  | error e => exact h k current wanted (by simpa [Except.map] using heq)

end Request.Refuses

namespace Store

open Operation Request

variable {past : List Event}

theorem ensures_refuses_transit {id : Int} {t : Transition} (hpast : ∀ e ∈ past, e.IsLook) :
    (transit id t).Ensures .recorded (fun _ _ => True) (Refuses id t.target) past := by
  refine ensures_transit_iff.2 ⟨True.intro, ?_⟩
  rintro outcome _ rfl
  cases outcome with
  | missing => exact .of_ne (by simp)
  | failed e =>
    intro k current wanted h
    exact ⟨past, t, _, rfl, hpast, rfl, .inr (congrArg Moved.failed (Except.error.inj h))⟩
  | refused name =>
    dsimp only
    cases hload : Status.load name with
    | error e => exact Refuses.of_unreadable (Status.unreadable_of_load e hload)
    | ok status =>
      intro k current wanted h
      obtain ⟨rfl, rfl, rfl⟩ := StoreError.invalidTransition.inj (Except.error.inj h)
      refine ⟨past, t, _, rfl, hpast, rfl, .inl ⟨?_, rfl, rfl⟩⟩
      rw [Status.load_eq_ok.1 hload]
  | moved =>
    refine ⟨True.intro, ?_⟩
    rintro row _ rfl
    cases row with
    | none => exact .of_ne (by simp)
    | some row => exact .of_load true row

end Store

open Operation in
/-- A request of a crawl that ends with an invalid transition has been refused. -/
theorem Request.ensures_refuses {request : Request} {id : Int} {next : Status}
    (h : request.crawl? = some (id, next)) :
    request.operation.Ensures .recorded (fun _ _ => True) (Refuses id next) [] := by
  have transit {t : Transition} {past : List Event} (hpast : ∀ e ∈ past, e.IsLook) :
      (Store.transit id t).Ensures .recorded (fun _ _ => True)
        (fun past r => Refuses id t.target past (r.map Reply.feed)) past :=
    (Store.ensures_refuses_transit hpast).mono (fun _ _ h => h) fun _ _ hr => hr.map Reply.feed
  cases request with
  | beginCrawl k =>
    obtain ⟨rfl, rfl⟩ := Prod.mk.inj (Option.some.inj h)
    refine ensures_map.2 (ensures_bind.2 (ensures_now.2 ?_))
    rintro t _ rfl
    exact transit (t := .begin _) (by simp [Event.IsLook])
  | failCrawl k =>
    obtain ⟨rfl, rfl⟩ := Prod.mk.inj (Option.some.inj h)
    refine ensures_map.2 (ensures_bind.2 (ensures_now.2 ?_))
    rintro t _ rfl
    exact transit (t := .fail _) (by simp [Event.IsLook])
  | finishCrawl k update =>
    obtain ⟨rfl, rfl⟩ := Prod.mk.inj (Option.some.inj h)
    refine ensures_map.2 (Store.ensures_finishCrawl.2 ⟨True.intro, ?_⟩)
    rintro found _ rfl
    cases found with
    | none => exact Refuses.of_ne (by simp)
    | some row =>
      rw [Option.elim_some]
      cases hload : row.load true with
      | error e => exact Refuses.of_unreadable (row.unreadable_of_load e hload)
      | ok feed =>
        dsimp only [Except.map]
        rintro t₁ _ rfl t₂ _ rfl
        cases Instant.advance? feed.updatedAt t₂.truncate with
        | none => exact Refuses.of_ne (by simp)
        | some next => exact transit (t := .finish ..) (by simp [Event.IsLook])
  | _ => cases h

namespace System

/-- **The state machine of crawls**: in every run of any requests the transitions of each feed take
turns, and its status tells the last one; only requests of a crawl have made them. A request of a
crawl that reports an invalid transition has committed none: it has looked at most at the feed
before, and the one step in which it tried left the store as it was, with the feed in the status
reported, from where there is no way into the other. -/
theorem crawl_state_machine {actions : List Action} (hproper : ∀ a ∈ actions, a.Proper)
    {x : System} (hx : initial.play actions = some x) :
    (∀ id, Transition.TakeTurns (Commit.ofFeed id (initial.commits actions))) ∧
      (∀ row ∈ x.store.feeds,
        Transition.Leave (Commit.ofFeed row.id (initial.commits actions)) row.status) ∧
      (∀ c ∈ initial.commits actions, ∃ request past rest,
        x.running[c.place]? = some ⟨request, past, rest⟩ ∧
          request.crawl? = some (c.feed, c.transition.target)) ∧
      ∀ i request past id current next, request.crawl?.isSome →
        x.running[i]? =
          some ⟨request, past, .done (.error (.invalidTransition id current next))⟩ →
        request.crawl? = some (id, next) ∧ ¬ current.CanBecome next ∧
          (∀ c ∈ initial.commits actions, c.place ≠ i) ∧
          ∃ before after looks t rest row w w', actions = before ++ .call i :: after ∧
            initial.play before = some w ∧
            w.running[i]? = some ⟨request, looks, .call (.moveFeed id t) rest⟩ ∧
            (∀ e ∈ looks, e.IsLook) ∧ t.target = next ∧ w.store.feed? id = some row ∧
            row.status = current.name ∧ w.act (.call i) = some w' ∧ w'.store = w.store := by
  have hturn : x.InTurn (initial.commits actions) :=
    inTurn_initial.play (Reachable.sound .refl) hproper hx
  refine ⟨hturn.turns, fun row hrow => ?_, fun c hc => ?_, ?_⟩
  · exact hturn.status row hrow ▸ (hturn.turns row.id).leave
  · obtain ⟨request, past, rest, hi, hcrawl, -⟩ := hturn.seen c hc
    exact ⟨request, past, rest, hi, hcrawl⟩
  intro i request past id current next hsome hi
  obtain ⟨⟨k, wanted⟩, hcrawl⟩ := Option.isSome_iff_exists.1 hsome
  have hsound := Reachable.sound (runs_of_play hproper hx)
  have hleads := (hsound.running _ (List.mem_of_getElem? hi)).leads
  obtain ⟨looks, t, outcome, rfl, hlooks, rfl, houtcome⟩ :=
    hleads.ensures (Request.ensures_refuses hcrawl) id current next rfl
  obtain ⟨before, after, w, rest, hsplit, hw, hwi, hanswer⟩ := exists_call_of_play hx hi
  replace hanswer : outcome = (w.store.moveFeed k t).1 := hanswer
  rcases houtcome with ⟨rfl, rfl, rfl⟩ | rfl
  · obtain ⟨hstays, row, hrow, hname, hstatus⟩ := Store.moveFeed_of_refused hanswer.symm
    refine ⟨hcrawl, fun hcan => hstatus (List.mem_map_of_mem hcan), fun c hc hplace => ?_, before,
      after, looks, t, rest, row, w, _, hsplit, hw, hwi, hlooks, rfl, hrow, hname,
      act_eq_some.2 (.call hwi), hstays⟩
    -- a transition that the request had committed would have been seen to succeed
    obtain ⟨request', past', rest', hj, -, hmoved⟩ := hturn.seen c hc
    rw [hplace, hi] at hj
    obtain ⟨-, rfl, -⟩ := Running.mk.inj (Option.some.inj hj)
    rcases List.mem_append.1 hmoved with hlook | hlast
    · exact hlooks _ hlook
    · obtain ⟨hcall, houtcome⟩ := Event.called.inj (List.mem_singleton.1 hlast)
      obtain ⟨rfl, rfl⟩ := Call.moveFeed.inj hcall
      cases houtcome
  · rcases Store.error_of_moveFeed hanswer.symm with ⟨fault, h⟩ | h <;> cases h

/-- Two crawlers begin a crawl of a new feed at the same time. -/
def beginningTwice : List Action :=
  [.start (.getOrCreateFeed "http://a.com/rss.xml"), .read 0 .epoch, .call 0,
    .start (.beginCrawl 1), .start (.beginCrawl 1), .read 1 .epoch, .read 2 .epoch,
    .call 1, .call 2, .call 1]

/-- The invalid transition that a request of a crawl has reported. -/
def refusal? (x : System) (i : Nat) : Option (Int × Status × Status) :=
  match x.running[i]? with
  | some ⟨request, _, .done (.error (.invalidTransition id current next))⟩ =>
    if request.crawl?.isSome then some (id, current, next) else none
  | _ => none

theorem refusal?_eq_some {x : System} {i : Nat} {id : Int} {current next : Status}
    (h : x.refusal? i = some (id, current, next)) : ∃ request past, request.crawl?.isSome ∧
      x.running[i]? =
        some ⟨request, past, .done (.error (.invalidTransition id current next))⟩ := by
  unfold refusal? at h
  split at h
  · next hi =>
    obtain ⟨hcrawl, h⟩ := Option.ite_none_right_eq_some.1 h
    cases h
    exact ⟨_, _, hcrawl, hi⟩
  · cases h

/-- The first of the two crawlers gets its turn, the other one does not. -/
theorem crawl_state_machine_beginningTwice : ∃ x : System, (∀ a ∈ beginningTwice, a.Proper) ∧
    initial.play beginningTwice = some x ∧ x.refusal? 2 = some (1, .updating, .updating) ∧
    Transition.TakeTurns (Commit.ofFeed 1 (initial.commits beginningTwice)) ∧
    (∀ row ∈ x.store.feeds,
      Transition.Leave (Commit.ofFeed row.id (initial.commits beginningTwice)) row.status) ∧
    ∀ c ∈ initial.commits beginningTwice, c.place ≠ 2 := by
  have hproper : ∀ a ∈ beginningTwice, a.Proper := by
    simp [beginningTwice, Action.Proper, Request.Proper]
  have hplay : (initial.play beginningTwice).map (·.refusal? 2) =
      some (some (1, .updating, .updating)) := by decide +kernel
  obtain ⟨x, hx, hrefusal⟩ := Option.map_eq_some_iff.1 hplay
  obtain ⟨request, past, hcrawl, hi⟩ := refusal?_eq_some hrefusal
  obtain ⟨hturns, hleave, -, hrefused⟩ := crawl_state_machine hproper hx
  obtain ⟨-, -, hnone, -⟩ := hrefused 2 request past 1 .updating .updating hcrawl hi
  exact ⟨x, hproper, hx, hrefusal, hturns 1, hleave, hnone⟩

end System

end Syndication
