import Syndication.Proofs.Program.Shared
/-!
# The steps of a run

A run from the initial state is the list of its steps, and a step is told by its number. What a
request has seen is what steps of the run have given it, in their order, and it has made no other
calls (`System.steps_of_play`). What holds of the store before one step and no longer before a later
one has been changed by a call in between (`System.exists_call_between`). A step that changes the
store is a commit of the request that makes it (`System.Commits`).
-/

namespace Syndication

/-- A call that has been answered so has left the store as it was. -/
def Event.IsQuiet : Event → Prop
  | .called c answer => ∀ s : Store, (c.run s).1 = answer → (c.run s).2 = s
  | .read _ => True

namespace System

variable {actions later : List Action} {x y : System} {i n m : Nat}

/-! ## Where a run stands -/

/-- The state before the step with a number. -/
def stateAt (actions : List Action) (n : Nat) : Option System := initial.play (actions.take n)

/-- The store before the step with a number. -/
def storeAt (actions : List Action) (n : Nat) : Option Store :=
  (stateAt actions n).map (·.store)

/-- The steps are proper and lead to a state, and every instant stored on the way lies in the years
0 to 9999. -/
structure LeadsInYears (actions : List Action) (x : System) : Prop where
  proper : ∀ a ∈ actions, a.Proper
  leads : initial.play actions = some x
  years : ∀ n s, storeAt actions n = some s → s.InYears

theorem stateAt_append (h : n ≤ actions.length) :
    stateAt (actions ++ later) n = stateAt actions n := by
  rw [stateAt, stateAt, List.take_append_of_le_length h]

theorem stateAt_length (actions : List Action) :
    stateAt actions actions.length = initial.play actions := by
  rw [stateAt, List.take_length]

theorem stateAt_succ {a : Action} (h : actions[n]? = some a) :
    stateAt actions (n + 1) = (stateAt actions n).bind (·.act a) := by
  rw [stateAt, List.take_add_one, h, Option.toList_some, play_append]
  refine Option.bind_congr fun y _ => ?_
  simp [play]

theorem stateAt_succ_cases {z : System} (hz : stateAt actions (n + 1) = some z) :
    stateAt actions n = some z ∨
      ∃ y a, actions[n]? = some a ∧ stateAt actions n = some y ∧ y.act a = some z := by
  cases ha : actions[n]? with
  | none =>
    left
    rwa [stateAt, List.take_add_one, ha, Option.toList_none, List.append_nil] at hz
  | some a =>
    rw [stateAt_succ ha] at hz
    obtain ⟨y, hy, hact⟩ := Option.bind_eq_some_iff.1 hz
    exact .inr ⟨y, a, rfl, hy, hact⟩

theorem exists_stateAt (hx : initial.play actions = some x) (n : Nat) :
    ∃ y, stateAt actions n = some y := by
  rw [← List.take_append_drop n actions, play_append] at hx
  obtain ⟨y, hy, -⟩ := Option.bind_eq_some_iff.1 hx
  exact ⟨y, hy⟩

theorem storeAt_eq_some {s : Store} :
    storeAt actions n = some s ↔ ∃ y, stateAt actions n = some y ∧ y.store = s :=
  Option.map_eq_some_iff

namespace LeadsInYears

theorem reachable (h : LeadsInYears actions x) (hy : stateAt actions n = some y) : y.Reachable :=
  runs_of_play (fun a ha => h.proper a (List.mem_of_mem_take ha)) hy

theorem inYears (h : LeadsInYears actions x) (hy : stateAt actions n = some y) :
    y.store.InYears :=
  h.years n _ (storeAt_eq_some.2 ⟨y, hy, rfl⟩)

end LeadsInYears

/-- Every instant that is stored on the way can be read. -/
def readable (x : System) : List Action → Bool
  | [] => x.store.stamps.all fun text => (Stamp.decode text).toBool
  | a :: actions => (x.store.stamps.all fun text => (Stamp.decode text).toBool) &&
      (x.act a).all fun y => y.readable actions

theorem inYears_of_readable (h : x.readable actions = true)
    (hy : x.play (actions.take n) = some y) : y.store.InYears := by
  induction actions generalizing x n with
  | nil =>
    rw [List.take_nil] at hy
    obtain rfl := Option.some.inj hy
    exact Store.inYears_of_decode (List.all_eq_true.1 h)
  | cons a actions ih =>
    obtain ⟨hx, hactions⟩ := Bool.and_eq_true_iff.1 h
    cases n with
    | zero =>
      obtain rfl := Option.some.inj hy
      exact Store.inYears_of_decode (List.all_eq_true.1 hx)
    | succ n =>
      obtain ⟨z, hz, hy⟩ := Option.bind_eq_some_iff.1 hy
      rw [hz, Option.all_some] at hactions
      exact ih hactions hy

theorem leadsInYears_of_readable (hproper : ∀ a ∈ actions, a.Proper)
    (hx : initial.play actions = some x) (hread : initial.readable actions = true) :
    LeadsInYears actions x := by
  refine ⟨hproper, hx, fun n s hs => ?_⟩
  obtain ⟨y, hy, rfl⟩ := storeAt_eq_some.1 hs
  exact inYears_of_readable hread hy

/-- What does not hold of a store any more has been changed by a call since. -/
theorem exists_call_between (p : Store → Prop) {s t : Store} (hnm : n ≤ m)
    (hs : storeAt actions n = some s) (hp : p s) (ht : storeAt actions m = some t) (hnot : ¬ p t) :
    ∃ k j u v, n ≤ k ∧ k < m ∧ actions[k]? = some (.call j) ∧ storeAt actions k = some u ∧
      storeAt actions (k + 1) = some v ∧ p u ∧ ¬ p v := by
  induction m, hnm using Nat.le_induction generalizing t with
  | base =>
    obtain rfl := Option.some.inj (hs.symm.trans ht)
    exact absurd hp hnot
  | succ m hnm ih =>
    have earlier {u : Store} (hu : storeAt actions m = some u) (hnot : ¬ p u) :
        ∃ k j u v, n ≤ k ∧ k < m + 1 ∧ actions[k]? = some (.call j) ∧ storeAt actions k = some u ∧
          storeAt actions (k + 1) = some v ∧ p u ∧ ¬ p v := by
      obtain ⟨k, j, u, v, hk, hkm, hrest⟩ := ih hu hnot
      exact ⟨k, j, u, v, hk, by omega, hrest⟩
    obtain ⟨z, hz, rfl⟩ := storeAt_eq_some.1 ht
    rcases stateAt_succ_cases hz with hsame | ⟨y, a, ha, hy, hact⟩
    · exact earlier (storeAt_eq_some.2 ⟨z, hsame, rfl⟩) hnot
    · have hu := storeAt_eq_some.2 ⟨y, hy, rfl⟩
      by_cases hpu : p y.store
      · cases act_eq_some.1 hact with
        | start request => exact absurd hpu hnot
        | read t hj => exact absurd hpu hnot
        | @call j request past c next hj =>
          exact ⟨m, j, y.store, _, hnm, Nat.lt_succ_self m, ha, hu, ht, hpu, hnot⟩
      · exact earlier hu hpu

/-! ## What steps give a request -/

/-- A step gives the request at a place something to see. -/
inductive Gives (actions : List Action) (n i : Nat) : Event → Prop
  | called {y : System} {request : Request} {past : List Event} {c : Call}
      {next : c.Answer → Program (Except StoreError Reply)}
      (hy : stateAt actions n = some y) (hstep : actions[n]? = some (.call i))
      (hi : y.running[i]? = some ⟨request, past, .call c next⟩) :
      Gives actions n i (.called c (c.run y.store).1)
  | read {t : Instant} (hstep : actions[n]? = some (.read i t)) : Gives actions n i (.read t)

theorem Gives.lt {e : Event} (h : Gives actions n i e) : n < actions.length := by
  cases h with
  | called _ hstep => exact (List.getElem?_eq_some_iff.1 hstep).1
  | read hstep => exact (List.getElem?_eq_some_iff.1 hstep).1

theorem Gives.append {e : Event} (h : Gives actions n i e) : Gives (actions ++ later) n i e := by
  have hlt := h.lt
  cases h with
  | called hy hstep hi =>
    exact .called ((stateAt_append hlt.le).trans hy)
      ((List.getElem?_append_left hlt).trans hstep) hi
  | read hstep => exact .read ((List.getElem?_append_left hlt).trans hstep)

/-- The store before the step that makes a call answers it, and what the call leaves is the store
after the step. -/
theorem Gives.answers {c : Call} {answer : c.Answer} (h : Gives actions n i (.called c answer)) :
    ∃ y, stateAt actions n = some y ∧ actions[n]? = some (.call i) ∧ (y.running[i]?).isSome ∧
      (c.run y.store).1 = answer ∧ storeAt actions (n + 1) = some (c.run y.store).2 := by
  generalize he : Event.called c answer = e at h
  cases h with
  | read => cases he
  | @called y request past c next hy hstep hi =>
    cases he
    refine ⟨y, hy, hstep, by simp [hi], rfl, ?_⟩
    have hact : y.act (.call i) = some _ := act_eq_some.2 (.call hi)
    rw [storeAt, stateAt_succ hstep, hy, Option.bind_some, hact]
    rfl

/-- A request that is under way at one step is so at every later one, and goes on. -/
theorem running_stateAt (hnm : n ≤ m) (hy : stateAt actions n = some y)
    {z : System} (hz : stateAt actions m = some z) {request : Request} {past : List Event}
    {rest : Program (Except StoreError Reply)}
    (hi : y.running[i]? = some ⟨request, past, rest⟩) :
    ∃ later rest', z.running[i]? = some ⟨request, past ++ later, rest'⟩ := by
  induction m, hnm using Nat.le_induction generalizing z with
  | base =>
    obtain rfl := Option.some.inj (hy.symm.trans hz)
    exact ⟨[], rest, by rwa [List.append_nil]⟩
  | succ m _ ih =>
    rcases stateAt_succ_cases hz with hsame | ⟨w, a, -, hw, hact⟩
    · exact ih hsame
    · obtain ⟨later, rest', hw'⟩ := ih hw
      obtain ⟨more, rest'', hz'⟩ := running_act hact hw'
      exact ⟨later ++ more, rest'', by rwa [← List.append_assoc]⟩

/-- A request that has seen nothing has made no call. -/
theorem ne_call_of_unseen (hx : initial.play actions = some x) {request : Request}
    {rest : Program (Except StoreError Reply)} (hi : x.running[i]? = some ⟨request, [], rest⟩) :
    actions[n]? ≠ some (.call i) := by
  intro hn
  have hlt := (List.getElem?_eq_some_iff.1 hn).1
  obtain ⟨z, hz⟩ := exists_stateAt hx (n + 1)
  have hstep := hz
  rw [stateAt_succ hn] at hstep
  obtain ⟨y, -, hact⟩ := Option.bind_eq_some_iff.1 hstep
  rw [← stateAt_length] at hx
  cases act_eq_some.1 hact with
  | call hj =>
    obtain ⟨later, rest', hx'⟩ := running_stateAt hlt hz hx
      (List.getElem?_set_self (List.getElem?_eq_some_iff.1 hj).1)
    rw [hi] at hx'
    simpa using congrArg (fun r => r.past.length) (Option.some.inj hx')

/-- **What a request has seen**: one step after another has given it that, and these are all the
calls that it has made. -/
theorem steps_of_play (hx : initial.play actions = some x) {request : Request} {past : List Event}
    {rest : Program (Except StoreError Reply)}
    (hi : x.running[i]? = some ⟨request, past, rest⟩) :
    ∃ steps : List Nat, steps.Pairwise (· < ·) ∧
      List.Forall₂ (fun n e => Gives actions n i e) steps past ∧
      ∀ n, actions[n]? = some (.call i) → n ∈ steps := by
  induction actions using List.reverseRecOn generalizing x past rest with
  | nil =>
    obtain rfl := Option.some.inj hx
    cases hi
  | append_singleton actions a ih =>
    obtain ⟨y, hy, hact⟩ := play_concat.1 hx
    have hlast : (actions ++ [a])[actions.length]? = some a := by simp
    have hhere : stateAt (actions ++ [a]) actions.length = some y := by
      rw [stateAt_append le_rfl, stateAt_length, hy]
    -- the steps before the last one give what they gave
    have earlier {steps : List Nat} {past : List Event}
        (hgives : List.Forall₂ (fun n e => Gives actions n i e) steps past) :
        List.Forall₂ (fun n e => Gives (actions ++ [a]) n i e) steps past :=
      hgives.imp fun _ _ h => h.append
    have calls {steps : List Nat} (hall : ∀ n, actions[n]? = some (.call i) → n ∈ steps) :
        ∀ n, (actions ++ [a])[n]? = some (.call i) → n ∈ steps ∨ n = actions.length := by
      intro n hn
      by_cases hlt : n < actions.length
      · exact .inl (hall n (by rwa [List.getElem?_append_left hlt] at hn))
      · have := (List.getElem?_eq_some_iff.1 hn).1
        rw [List.length_append, List.length_singleton] at this
        exact .inr (by omega)
    -- the last step gives one thing more
    have longer {steps : List Nat} {past : List Event} {e : Event}
        (hsorted : steps.Pairwise (· < ·))
        (hgives : List.Forall₂ (fun n e => Gives actions n i e) steps past)
        (hall : ∀ n, actions[n]? = some (.call i) → n ∈ steps)
        (he : Gives (actions ++ [a]) actions.length i e) :
        ∃ steps : List Nat, steps.Pairwise (· < ·) ∧
          List.Forall₂ (fun n e => Gives (actions ++ [a]) n i e) steps (past ++ [e]) ∧
          ∀ n, (actions ++ [a])[n]? = some (.call i) → n ∈ steps := by
      refine ⟨steps ++ [actions.length], ?_, ?_, fun n hn => ?_⟩
      · refine List.pairwise_append.2 ⟨hsorted, List.pairwise_singleton _ _, fun n hn m hm => ?_⟩
        obtain rfl := List.mem_singleton.1 hm
        obtain ⟨e, -, he⟩ := forall₂_left hgives hn
        exact he.lt
      · exact List.rel_append (earlier hgives) (.cons he .nil)
      · rw [List.mem_append, List.mem_singleton]
        exact calls hall n hn
    rcases running_act_cases hact hi with hsame | ⟨rfl, rfl, -⟩ |
      ⟨past, c, next, rfl, hj, -, rfl, -⟩ | ⟨past, t, next, rfl, hj, rfl, -⟩
    · obtain ⟨steps, hsorted, hgives, hall⟩ := ih hy hsame
      refine ⟨steps, hsorted, earlier hgives, fun n hn => (calls hall n hn).resolve_right ?_⟩
      rintro rfl
      rw [hlast] at hn
      obtain rfl := Option.some.inj hn
      cases act_eq_some.1 hact with
      | call hj =>
        rw [hsame] at hj
        cases hj
        rw [List.getElem?_set_self (List.getElem?_eq_some_iff.1 hsame).1] at hi
        simpa using congrArg (fun r => r.past.length) (Option.some.inj hi)
    · exact ⟨[], .nil, .nil, fun n hn => absurd hn (ne_call_of_unseen hx hi)⟩
    · obtain ⟨steps, hsorted, hgives, hall⟩ := ih hy hj
      exact longer hsorted hgives hall (.called hhere hlast hj)
    · obtain ⟨steps, hsorted, hgives, hall⟩ := ih hy hj
      exact longer hsorted hgives hall (.read hlast)

/-! ## Commits -/

/-- A step is a call of the request at a place, and the store changes with it. -/
def Commits (actions : List Action) (n i : Nat) : Prop :=
  actions[n]? = some (.call i) ∧ storeAt actions (n + 1) ≠ storeAt actions n

/-- What leaves the store is no commit. -/
theorem Gives.not_commits {e : Event} (h : Gives actions n i e) (he : e.IsQuiet) :
    ¬ Commits actions n i := by
  rintro ⟨hstep, hchanges⟩
  cases e with
  | read t =>
    cases h with
    | read hread =>
      rw [hstep] at hread
      cases hread
  | called c answer =>
    obtain ⟨y, hy, -, -, hanswer, hleft⟩ := h.answers
    exact hchanges (by rw [hleft, he y.store hanswer, storeAt, hy, Option.map_some])

section Steps

variable {steps : List Nat} {past front : List Event} {last : Event}

/-- Where only the last event may have changed the store, only the last step may be a commit. -/
theorem exists_last_step
    (hgives : List.Forall₂ (fun n e => Gives actions n i e) steps (front ++ [last]))
    (hall : ∀ n, actions[n]? = some (.call i) → n ∈ steps) (hfront : ∀ e ∈ front, e.IsQuiet) :
    ∃ m, Gives actions m i last ∧ ∀ n, Commits actions n i → n = m := by
  have hbefore := List.forall₂_take_append _ _ _ hgives
  have hlast := List.forall₂_drop_append _ _ _ hgives
  obtain ⟨m, rest, hm, hrest, hdrop⟩ := List.forall₂_cons_right_iff.1 hlast
  obtain rfl := List.forall₂_nil_right_iff.1 hrest
  refine ⟨m, hm, fun n hn => ?_⟩
  have hmem := hall n hn.1
  rw [← List.take_append_drop front.length steps, hdrop] at hmem
  rcases List.mem_append.1 hmem with hmem | hmem
  · obtain ⟨e, he, hgives⟩ := forall₂_left hbefore hmem
    exact absurd hn (hgives.not_commits (hfront e he))
  · exact List.mem_singleton.1 hmem

theorem not_commits_of_quiet
    (hgives : List.Forall₂ (fun n e => Gives actions n i e) steps past)
    (hall : ∀ n, actions[n]? = some (.call i) → n ∈ steps) (hpast : ∀ e ∈ past, e.IsQuiet)
    (n : Nat) : ¬ Commits actions n i := by
  intro hn
  obtain ⟨e, he, hgives⟩ := forall₂_left hgives (hall n hn.1)
  exact hgives.not_commits (hpast e he) hn

end Steps

end System

end Syndication
