import Syndication.Proofs.Program.Requests
import Syndication.Proofs.Store.Change
/-!
# Requests that run at the same time

Any number of requests run on one store. A step starts a request, makes the next call of one that
runs or lets it read the clock, in any order and at any times. Of every state that can be reached
(`System.Reachable`) it holds that the store is valid, that what a request has seen is what some
earlier valid store has answered, and that its next call is one that it is allowed
(`System.Reachable.sound`, `Running.Sound.allowed`).
-/

namespace Syndication

/-! ## Systems -/

/-- A request under way: what it has seen and what is left of its operation. -/
structure Running where
  request : Request
  past : List Event
  rest : Program (Except StoreError Reply)

/-- A store and the requests that run on it. -/
structure System where
  store : Store
  running : List Running

/-- One step of a system. -/
inductive Action
  | start (request : Request)
  /-- The next call of the request at a place. -/
  | call (place : Nat)
  /-- The request at a place reads the clock, which shows `time`. -/
  | read (place : Nat) (time : Instant)

/-- Requests that are started are proper. -/
def Action.Proper : Action → Prop
  | .start request => request.Proper
  | _ => True

namespace System

/-- No rows and nothing under way. -/
def initial : System := ⟨.empty, []⟩

/-- The state after a step, if the step can be made. -/
def act (x : System) : Action → Option System
  | .start request => some { x with running := x.running ++ [⟨request, [], request.operation.run⟩] }
  | .call i =>
    match x.running[i]? with
    | some ⟨request, past, .call c next⟩ =>
      let answer := (c.run x.store).1
      some ⟨(c.run x.store).2,
        x.running.set i ⟨request, past ++ [.called c answer], next answer⟩⟩
    | _ => none
  | .read i t =>
    match x.running[i]? with
    | some ⟨request, past, .clock next⟩ =>
      some { x with running := x.running.set i ⟨request, past ++ [.read t], next t⟩ }
    | _ => none

/-- What a step does. -/
inductive Acts (x : System) : Action → System → Prop
  | start (request : Request) :
      Acts x (.start request)
        { x with running := x.running ++ [⟨request, [], request.operation.run⟩] }
  | call {i : Nat} {request : Request} {past : List Event} {c : Call}
      {next : c.Answer → Program (Except StoreError Reply)}
      (h : x.running[i]? = some ⟨request, past, .call c next⟩) :
      Acts x (.call i) ⟨(c.run x.store).2, x.running.set i
        ⟨request, past ++ [.called c (c.run x.store).1], next (c.run x.store).1⟩⟩
  | read {i : Nat} {request : Request} {past : List Event}
      {next : Instant → Program (Except StoreError Reply)} (t : Instant)
      (h : x.running[i]? = some ⟨request, past, .clock next⟩) :
      Acts x (.read i t)
        { x with running := x.running.set i ⟨request, past ++ [.read t], next t⟩ }

theorem act_eq_some {x y : System} {a : Action} : x.act a = some y ↔ x.Acts a y := by
  constructor
  · intro h
    cases a with
    | start request =>
      obtain rfl := Option.some.inj h
      exact .start request
    | call i =>
      simp only [act] at h
      split at h
      · next hi =>
        obtain rfl := Option.some.inj h
        exact .call hi
      · cases h
    | read i t =>
      simp only [act] at h
      split at h
      · next hi =>
        obtain rfl := Option.some.inj h
        exact .read t hi
      · cases h
  · intro h
    cases h with
    | start request => rfl
    | call h => simp only [act, h]
    | read t h => simp only [act, h]

/-! ## What requests under way have seen -/

/-- A request goes on from where it stood. -/
theorem running_act {x y : System} {a : Action} (hy : x.act a = some y) {i : Nat}
    {request : Request} {past : List Event} {rest : Program (Except StoreError Reply)}
    (hi : x.running[i]? = some ⟨request, past, rest⟩) :
    ∃ later rest', y.running[i]? = some ⟨request, past ++ later, rest'⟩ := by
  have unmoved : ∃ later rest', x.running[i]? = some ⟨request, past ++ later, rest'⟩ :=
    ⟨[], rest, by simpa using hi⟩
  have moved {j : Nat} {request' : Request} {past' : List Event}
      {rest' : Program (Except StoreError Reply)}
      (hj : x.running[j]? = some ⟨request', past', rest'⟩) (e : Event)
      (rest'' : Program (Except StoreError Reply)) : ∃ later next,
        (x.running.set j ⟨request', past' ++ [e], rest''⟩)[i]? =
          some ⟨request, past ++ later, next⟩ := by
    by_cases hij : j = i
    · obtain rfl := hij
      obtain ⟨rfl, rfl, rfl⟩ := Running.mk.inj (Option.some.inj (hj.symm.trans hi))
      exact ⟨[e], rest'', List.getElem?_set_self (List.getElem?_eq_some_iff.1 hj).1⟩
    · rwa [List.getElem?_set_ne hij]
  cases act_eq_some.1 hy with
  | start request' =>
    obtain ⟨later, rest', h⟩ := unmoved
    exact ⟨later, rest', by rw [List.getElem?_append_left (List.getElem?_eq_some_iff.1 h).1, h]⟩
  | call hj => exact moved hj _ _
  | read t hj => exact moved hj _ _

/-- Where a request stands: it stood there before the step, or the step has started it, made its
next call or let it read the clock. -/
theorem running_act_cases {x y : System} {a : Action} (hy : x.act a = some y) {i : Nat}
    {request : Request} {past : List Event} {rest : Program (Except StoreError Reply)}
    (hi : y.running[i]? = some ⟨request, past, rest⟩) :
    x.running[i]? = some ⟨request, past, rest⟩ ∨
      (a = .start request ∧ past = [] ∧ rest = request.operation.run) ∨
      (∃ earlier c next, a = .call i ∧ x.running[i]? = some ⟨request, earlier, .call c next⟩ ∧
        y.store = (c.run x.store).2 ∧ past = earlier ++ [.called c (c.run x.store).1] ∧
        rest = next (c.run x.store).1) ∨
      ∃ earlier t next, a = .read i t ∧ x.running[i]? = some ⟨request, earlier, .clock next⟩ ∧
        past = earlier ++ [.read t] ∧ rest = next t := by
  cases act_eq_some.1 hy with
  | start request' =>
    by_cases hlt : i < x.running.length
    · exact .inl (by rwa [List.getElem?_append_left hlt] at hi)
    · rw [List.getElem?_append_right (by omega)] at hi
      obtain ⟨rfl, rfl, rfl⟩ := Running.mk.inj (List.mem_singleton.1 (List.mem_of_getElem? hi))
      exact .inr (.inl ⟨rfl, rfl, rfl⟩)
  | @call j request' past' c next hj =>
    by_cases hij : j = i
    · obtain rfl := hij
      rw [List.getElem?_set_self (List.getElem?_eq_some_iff.1 hj).1] at hi
      obtain ⟨rfl, rfl, rfl⟩ := Running.mk.inj (Option.some.inj hi)
      exact .inr (.inr (.inl ⟨past', c, next, rfl, hj, rfl, rfl, rfl⟩))
    · exact .inl (by rwa [List.getElem?_set_ne hij] at hi)
  | @read j request' past' next t hj =>
    by_cases hij : j = i
    · obtain rfl := hij
      rw [List.getElem?_set_self (List.getElem?_eq_some_iff.1 hj).1] at hi
      obtain ⟨rfl, rfl, rfl⟩ := Running.mk.inj (Option.some.inj hi)
      exact .inr (.inr (.inr ⟨past', t, next, rfl, hj, rfl, rfl⟩))
    · exact .inl (by rwa [List.getElem?_set_ne hij] at hi)

/-! ## Runs -/

/-- One state can be reached from another by steps that meet a condition where they are made. -/
inductive Runs (P : System → Action → Prop) (x : System) : System → Prop
  | refl : Runs P x x
  | step {y z : System} {a : Action} (h : Runs P x y) (ha : a.Proper) (hP : P y a)
      (hz : y.act a = some z) : Runs P x z

/-- A state that the initial one leads to. -/
abbrev Reachable (x : System) : Prop := initial.Runs (fun _ _ => True) x

theorem Runs.trans {P : System → Action → Prop} {x y z : System} (hxy : x.Runs P y)
    (hyz : y.Runs P z) : x.Runs P z := by
  induction hyz with
  | refl => exact hxy
  | step _ ha hP hz ih => exact .step ih ha hP hz

/-- Makes steps one after another. -/
def play (x : System) : List Action → Option System
  | [] => some x
  | a :: actions => (x.act a).bind fun y => y.play actions

theorem play_append (x : System) (actions later : List Action) :
    x.play (actions ++ later) = (x.play actions).bind fun y => y.play later := by
  induction actions generalizing x with
  | nil => rfl
  | cons a actions ih => simp only [List.cons_append, play, Option.bind_assoc, ih]

theorem play_concat {x z : System} {actions : List Action} {a : Action} :
    x.play (actions ++ [a]) = some z ↔ ∃ y, x.play actions = some y ∧ y.act a = some z := by
  simp [play_append, play, Option.bind_eq_some_iff]

/-- A call that a request has made last was a step, in a state that other steps have led to. -/
theorem exists_call_of_play {x : System} {actions : List Action}
    (hx : initial.play actions = some x) {i : Nat} {request : Request} {past : List Event}
    {c : Call} {answer : c.Answer} {rest : Program (Except StoreError Reply)}
    (hi : x.running[i]? = some ⟨request, past ++ [.called c answer], rest⟩) :
    ∃ before after w next, actions = before ++ .call i :: after ∧ initial.play before = some w ∧
      w.running[i]? = some ⟨request, past, .call c next⟩ ∧ answer = (c.run w.store).1 := by
  induction actions using List.reverseRecOn generalizing x with
  | nil =>
    obtain rfl := Option.some.inj hx
    cases hi
  | append_singleton actions a ih =>
    obtain ⟨y, hy, hact⟩ := play_concat.1 hx
    rcases running_act_cases hact hi with hsame | ⟨-, hnil, -⟩ |
      ⟨earlier, c', next, rfl, hj, -, hpast, -⟩ | ⟨earlier, t, next, -, -, hpast, -⟩
    · obtain ⟨before, after, w, next, rfl, hw⟩ := ih hy hsame
      exact ⟨before, after ++ [a], w, next, by simp, hw⟩
    · simp at hnil
    · obtain ⟨rfl, hlast⟩ := List.append_inj' hpast rfl
      obtain ⟨rfl, hanswer⟩ := Event.called.inj (List.singleton_inj.1 hlast)
      exact ⟨actions, [], y, next, rfl, hy, hj, eq_of_heq hanswer⟩
    · obtain ⟨-, hlast⟩ := List.append_inj' hpast rfl
      cases hlast

theorem runs_of_play {x y : System} {actions : List Action} (hproper : ∀ a ∈ actions, a.Proper)
    (h : x.play actions = some y) : x.Runs (fun _ _ => True) y := by
  induction actions generalizing x with
  | nil => exact Option.some.inj h ▸ .refl
  | cons a actions ih =>
    obtain ⟨z, hz, hrest⟩ := Option.bind_eq_some_iff.1 h
    have hfirst : x.Runs (fun _ _ => True) z :=
      .step .refl (hproper a List.mem_cons_self) True.intro hz
    exact hfirst.trans (ih (fun b hb => hproper b (List.mem_cons_of_mem a hb)) hrest)

/-- A store that steps from the initial state leave. -/
theorem exists_of_play {actions : List Action} {s : Store} (hproper : ∀ a ∈ actions, a.Proper)
    (hs : (initial.play actions).map (·.store) = some s) :
    ∃ x : System, x.Reachable ∧ x.store = s := by
  obtain ⟨x, hx, hstore⟩ := Option.map_eq_some_iff.1 hs
  exact ⟨x, runs_of_play hproper hx, hstore⟩

/-- A step after steps from the initial state, with the stores before and after it. -/
theorem exists_act_of_play {actions : List Action} {a : Action} {s t : Store}
    (hproper : ∀ b ∈ actions, b.Proper) (hs : (initial.play actions).map (·.store) = some s)
    (ht : ((initial.play actions).bind (·.act a)).map (·.store) = some t) :
    ∃ x y : System, x.Reachable ∧ x.act a = some y ∧ x.store = s ∧ y.store = t := by
  obtain ⟨x, hx, rfl⟩ := Option.map_eq_some_iff.1 hs
  rw [hx, Option.bind_some] at ht
  obtain ⟨y, hy, rfl⟩ := Option.map_eq_some_iff.1 ht
  exact ⟨x, y, runs_of_play hproper hx, hy, rfl, rfl⟩

end System

/-! ## What holds in every state -/

/-- A valid store of before has answered so. -/
def Event.Held (s : Store) : Event → Prop
  | .called c answer => ∃ s₀ : Store, s₀.Valid ∧ answer = (c.run s₀).1 ∧ (c.run s₀).2.Extends s
  | .read _ => True

theorem Event.Held.later {s s' : Store} {e : Event} (h : e.Held s) (hs : s.Extends s') :
    e.Held s' := by
  cases e with
  | read t => exact True.intro
  | called c answer =>
    obtain ⟨s₀, hvalid, hanswer, hextends⟩ := h
    exact ⟨s₀, hvalid, hanswer, hextends.trans hs⟩

/-- A feed that has been asked for exists from then on. -/
theorem Event.Held.feed {s : Store} {url stamp : String} {row : FeedRow}
    (h : (Event.called (.ensureFeed url stamp) row).Held s) : ∃ f ∈ s.feeds, f.id = row.id := by
  obtain ⟨s₀, -, hrow, hextends⟩ := h
  exact hextends.feed ⟨row, hrow ▸ Store.mem_feeds_ensureFeed url stamp s₀, rfl⟩

/-- A request under way on a store: where it stands has come of what it has seen, and valid stores
have answered that. -/
structure Running.Sound (s : Store) (r : Running) : Prop where
  proper : r.request.Proper
  leads : r.request.operation.run.Leads r.past r.rest
  held : ∀ e ∈ r.past, e.Held s

namespace Running.Sound

variable {s : Store} {r : Running}

/-- The next call is one that the request is allowed. -/
theorem allowed {request : Request} {past : List Event} {c : Call}
    {next : c.Answer → Program (Except StoreError Reply)}
    (h : Sound s ⟨request, past, .call c next⟩) : request.Allowed past c :=
  (h.leads.ensures (Request.ensures_allowed h.proper)).1

/-- A feed that the next call binds to exists. -/
theorem bindsKnown {request : Request} {past : List Event} {c : Call}
    {next : c.Answer → Program (Except StoreError Reply)}
    (h : Sound s ⟨request, past, .call c next⟩) : c.BindsKnown s := by
  have hallowed := h.allowed
  cases c with
  | bind id feedId status stamp =>
    obtain ⟨target, row, _, -, hseen, rfl, -, -⟩ := hallowed
    obtain ⟨stamp, hmem⟩ := hseen.mem_ensureFeed
    exact (h.held _ hmem).feed
  | _ => exact True.intro

theorem later {s' : Store} (h : r.Sound s) (hs : s.Extends s') : r.Sound s' :=
  ⟨h.proper, h.leads, fun e he => (h.held e he).later hs⟩

end Running.Sound

namespace System

/-- The store is valid, and what is under way on it is sound. -/
structure Sound (x : System) : Prop where
  valid : x.store.Valid
  running : ∀ r ∈ x.running, r.Sound x.store

/-- The store after a call of a request under way. -/
theorem Sound.valid_call {x : System} (h : x.Sound) {i : Nat} {request : Request}
    {past : List Event} {c : Call} {next : c.Answer → Program (Except StoreError Reply)}
    (hi : x.running[i]? = some ⟨request, past, .call c next⟩) : (c.run x.store).2.Valid :=
  have hrunning := h.running _ (List.mem_of_getElem? hi)
  Call.valid_run h.valid hrunning.allowed.proper hrunning.bindsKnown

theorem Sound.act {x y : System} {a : Action} (h : x.Sound) (ha : a.Proper)
    (hy : x.act a = some y) : y.Sound := by
  cases act_eq_some.1 hy with
  | start request =>
    refine ⟨h.valid, fun r hr => ?_⟩
    rcases List.mem_append.1 hr with hr | hr
    · exact h.running r hr
    · obtain rfl := List.mem_singleton.1 hr
      exact ⟨ha, .start, by simp⟩
  | @call i request past c next hi =>
    have hsound := h.running _ (List.mem_of_getElem? hi)
    have hextends := Call.extends_run h.valid c
    refine ⟨h.valid_call hi, fun r hr => ?_⟩
    rcases List.mem_or_eq_of_mem_set hr with hr | rfl
    · exact (h.running r hr).later hextends
    · refine ⟨hsound.proper, hsound.leads.call _, fun e he => ?_⟩
      rcases List.mem_append.1 he with he | he
      · exact (hsound.held e he).later hextends
      · obtain rfl := List.mem_singleton.1 he
        exact ⟨x.store, h.valid, rfl, .refl _⟩
  | @read i request past next t hi =>
    have hsound := h.running _ (List.mem_of_getElem? hi)
    refine ⟨h.valid, fun r hr => ?_⟩
    rcases List.mem_or_eq_of_mem_set hr with hr | rfl
    · exact h.running r hr
    · refine ⟨hsound.proper, hsound.leads.clock t, fun e he => ?_⟩
      rcases List.mem_append.1 he with he | he
      · exact hsound.held e he
      · obtain rfl := List.mem_singleton.1 he
        exact True.intro

theorem Sound.runs {P : System → Action → Prop} {x y : System} (h : x.Sound) (hy : x.Runs P y) :
    y.Sound := by
  induction hy with
  | refl => exact h
  | step _ ha _ hz ih => exact ih.act ha hz

/-- What holds between the stores before and after any call that a valid store may get, and can be
chained, holds between the stores before and after a run. -/
theorem Runs.stores {R : Store → Store → Prop} (refl : ∀ s, R s s)
    (trans : ∀ s t u, R s t → R t u → R s u)
    (call : ∀ (s : Store) (c : Call), s.Valid → c.Proper → c.BindsKnown s → R s (c.run s).2)
    {P : System → Action → Prop} {x y : System} (hx : x.Sound) (hy : x.Runs P y) :
    R x.store y.store := by
  induction hy with
  | refl => exact refl x.store
  | @step z w a h ha hP hw ih =>
    refine trans _ _ _ ih ?_
    have hz : z.Sound := hx.runs h
    cases act_eq_some.1 hw with
    | start request => exact refl z.store
    | read t hi => exact refl z.store
    | @call i request past c next hi =>
      have hrunning := hz.running _ (List.mem_of_getElem? hi)
      exact call z.store c hz.valid hrunning.allowed.proper hrunning.bindsKnown

/-- Runs extend stores. -/
theorem Runs.extends {P : System → Action → Prop} {x y : System} (hx : x.Sound)
    (hy : x.Runs P y) : x.store.Extends y.store :=
  hy.stores .refl (fun _ _ _ => .trans) (fun _ c hvalid _ _ => Call.extends_run hvalid c) hx

/-- A step extends the store. -/
theorem Sound.extends_act {x y : System} {a : Action} (h : x.Sound) (hy : x.act a = some y) :
    x.store.Extends y.store := by
  cases act_eq_some.1 hy with
  | start request => exact .refl _
  | call hi => exact Call.extends_run h.valid _
  | read t hi => exact .refl _

/-- **Every reachable state is sound**: its store is valid, and what is under way is as it has come
of what valid stores have answered. -/
theorem Reachable.sound {x : System} (h : x.Reachable) : x.Sound :=
  Sound.runs ⟨Store.valid_empty, by simp [initial]⟩ h

/-! ## Beyond the years -/

/-- The first instant of the year 10000. -/
def afterYears : Instant :=
  { Instant.epoch with day := 2932897, firstDay_le := by decide, le_lastDay := by decide }

end System

end Syndication
