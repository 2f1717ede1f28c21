import Mathlib
import Syndication.Store.Program
/-!
# What programs ensure

What calls answer and which times are read depends on what goes on around a program.
`Surroundings` say how it may be, from one situation to the next, and `Program.Ensures` that
whatever it is the program makes only calls that are allowed and ends as promised; an equation for
each way to build an operation computes it. Two surroundings are of use everywhere: a store that
nobody else touches (`Surroundings.alone`, with `Program.runOn` for a given clock), and any
answers at all, which are recorded (`Surroundings.recorded`).
-/

namespace Syndication

/-- How calls are answered and times are read, from one situation to the next. -/
structure Surroundings (σ : Type) where
  answers : σ → (c : Call) → c.Answer → σ → Prop
  reads : σ → Instant → σ → Prop

variable {σ α β : Type}

/-! ## Programs -/

namespace Program

/-- From a situation on, a program makes only calls that are allowed, and `post` holds where it
ends. -/
def Ensures (w : Surroundings σ) (allowed : σ → Call → Prop) (post : σ → α → Prop) :
    σ → Program α → Prop
  | x, done a => post x a
  | x, call c next =>
    allowed x c ∧ ∀ a y, w.answers x c a y → Ensures w allowed post y (next a)
  | x, clock next => ∀ t y, w.reads x t y → Ensures w allowed post y (next t)

variable {w : Surroundings σ} {allowed allowed' : σ → Call → Prop} {post post' : σ → α → Prop}

theorem Ensures.mono (hcalls : ∀ x c, allowed x c → allowed' x c)
    (hpost : ∀ x a, post x a → post' x a) {p : Program α} {x : σ}
    (h : Ensures w allowed post x p) : Ensures w allowed' post' x p := by
  induction p generalizing x with
  | done a => exact hpost x a h
  | call c next ih => exact ⟨hcalls x c h.1, fun a y hy => ih a (h.2 a y hy)⟩
  | clock next ih => exact fun t y hy => ih t (h t y hy)

theorem ensures_bind {post : σ → β → Prop} {f : α → Program β} {p : Program α} {x : σ} :
    Ensures w allowed post x (p.bind f) ↔
      Ensures w allowed (fun y a => Ensures w allowed post y (f a)) x p := by
  induction p generalizing x with
  | done a => rfl
  | call c next ih => simp only [Program.bind, Ensures, ih]
  | clock next ih => simp only [Program.bind, Ensures, ih]

end Program

/-! ## Operations -/

namespace Operation

/-- From a situation on, an operation makes only calls that are allowed, and `post` holds where it
ends. -/
def Ensures (w : Surroundings σ) (allowed : σ → Call → Prop)
    (post : σ → Except StoreError α → Prop) (x : σ) (op : Operation α) : Prop :=
  Program.Ensures w allowed post x op.run

/-- What the first of two operations has to ensure: an error ends both. -/
def Continues (w : Surroundings σ) (allowed : σ → Call → Prop)
    (post : σ → Except StoreError β → Prop) (f : α → Operation β) :
    σ → Except StoreError α → Prop
  | x, .ok a => (f a).Ensures w allowed post x
  | x, .error e => post x (.error e)

variable {w : Surroundings σ} {allowed allowed' : σ → Call → Prop}
  {post post' : σ → Except StoreError α → Prop} {x : σ}

@[simp] theorem continues_ok {post : σ → Except StoreError β → Prop} {f : α → Operation β}
    {a : α} : Continues w allowed post f x (.ok a) ↔ (f a).Ensures w allowed post x := Iff.rfl

@[simp] theorem continues_error {post : σ → Except StoreError β → Prop} {f : α → Operation β}
    {e : StoreError} : Continues w allowed post f x (.error e) ↔ post x (.error e) := Iff.rfl

theorem Ensures.mono (hcalls : ∀ x c, allowed x c → allowed' x c)
    (hpost : ∀ x r, post x r → post' x r) {op : Operation α}
    (h : op.Ensures w allowed post x) : op.Ensures w allowed' post' x :=
  Program.Ensures.mono hcalls hpost h

@[simp] theorem ensures_pure {a : α} :
    (pure a : Operation α).Ensures w allowed post x ↔ post x (.ok a) := Iff.rfl

@[simp] theorem ensures_throw {e : StoreError} :
    (throw e : Operation α).Ensures w allowed post x ↔ post x (.error e) := Iff.rfl

@[simp] theorem ensures_loaded {v : Except StoreError α} :
    (loaded v).Ensures w allowed post x ↔ post x v := Iff.rfl

@[simp] theorem ensures_call {c : Call} {post : σ → Except StoreError c.Answer → Prop} :
    (call c).Ensures w allowed post x ↔
      allowed x c ∧ ∀ a y, w.answers x c a y → post y (.ok a) := Iff.rfl

@[simp] theorem ensures_now {post : σ → Except StoreError Instant → Prop} :
    now.Ensures w allowed post x ↔ ∀ t y, w.reads x t y → post y (.ok t.truncate) := Iff.rfl

@[simp] theorem ensures_bind {post : σ → Except StoreError β → Prop} {f : α → Operation β}
    {op : Operation α} : (op >>= f).Ensures w allowed post x ↔
      op.Ensures w allowed (Continues w allowed post f) x := by
  change Program.Ensures w allowed post x (Program.bind op.run (ExceptT.bindCont f)) ↔ _
  rw [Program.ensures_bind]
  have cont (y : σ) (r : Except StoreError α) :
      Program.Ensures w allowed post y (ExceptT.bindCont f r) ↔
        Continues w allowed post f y r := by
    cases r with
    | ok a => rfl
    | error e => rfl
  exact ⟨.mono (fun _ _ h => h) fun y r => (cont y r).1,
    .mono (fun _ _ h => h) fun y r => (cont y r).2⟩

theorem continues_pure {post : σ → Except StoreError β → Prop} {g : α → β}
    {r : Except StoreError α} :
    Continues w allowed post (fun a => pure (g a)) x r ↔ post x (r.map g) := by
  cases r with
  | ok a => rfl
  | error e => rfl

@[simp] theorem ensures_map {post : σ → Except StoreError β → Prop} {g : α → β}
    {op : Operation α} : (g <$> op).Ensures w allowed post x ↔
      op.Ensures w allowed (fun y r => post y (r.map g)) x := by
  have hbind : g <$> op = op >>= fun a => pure (g a) := rfl
  rw [hbind, ensures_bind]
  exact ⟨.mono (fun _ _ h => h) fun _ _ => continues_pure.1,
    .mono (fun _ _ h => h) fun _ _ => continues_pure.2⟩

@[simp] theorem ensures_tickAfter {previous : Instant}
    {post : σ → Except StoreError Instant → Prop} :
    (tickAfter previous).Ensures w allowed post x ↔ ∀ t y, w.reads x t y →
      post y ((Instant.advance? previous t.truncate).elim (.error .clockOverflow) .ok) := by
  unfold tickAfter
  simp only [ensures_bind, ensures_now, continues_ok]
  refine forall_congr' fun t => forall_congr' fun y => imp_congr_right fun _ => ?_
  cases Instant.advance? previous t.truncate with
  | none => rfl
  | some u => rfl

/-- An operation that is followed by another. -/
theorem Ensures.bind {mid : σ → Except StoreError α → Prop}
    {post : σ → Except StoreError β → Prop} {f : α → Operation β} {op : Operation α}
    (h : op.Ensures w allowed mid x) (hok : ∀ y a, mid y (.ok a) → (f a).Ensures w allowed post y)
    (herror : ∀ y e, mid y (.error e) → post y (.error e)) :
    (op >>= f).Ensures w allowed post x := by
  rw [ensures_bind]
  refine h.mono (fun _ _ h => h) fun y r hr => ?_
  cases r with
  | ok a => exact hok y a hr
  | error e => exact herror y e hr

end Operation

/-! ## Alone with a store -/

/-- Nobody else touches the store, and the clock shows times of some kind. -/
def Surroundings.alone (shown : Instant → Prop) : Surroundings Store where
  answers s c a s' := (c.run s).1 = a ∧ (c.run s).2 = s'
  reads s t s' := shown t ∧ s = s'

namespace Program

/-- Runs a program undisturbed with the times that a clock shows one after another. -/
def runOn (clock : Nat → Instant) : Program α → Store → α × Store
  | done a, s => (a, s)
  | call c next, s => runOn clock (next (c.run s).1) (c.run s).2
  | .clock next, s => runOn (fun n => clock (n + 1)) (next (clock 0)) s

theorem runOn_const (now : Instant) (p : Program α) (s : Store) :
    p.runOn (fun _ => now) s = p.runAt now s := by
  induction p generalizing s with
  | done a => rfl
  | call c next ih => exact ih _ _
  | clock next ih => exact ih _ _

/-- What a program ensures alone with a store holds where it ends. -/
theorem Ensures.runOn {shown : Instant → Prop} {clock : Nat → Instant}
    (hclock : ∀ n, shown (clock n)) {allowed : Store → Call → Prop} {post : Store → α → Prop}
    {p : Program α} {s : Store} (h : Ensures (.alone shown) allowed post s p) :
    post (p.runOn clock s).2 (p.runOn clock s).1 := by
  induction p generalizing s clock with
  | done a => exact h
  | call c next ih => exact ih _ hclock (h.2 _ _ ⟨rfl, rfl⟩)
  | clock next ih => exact ih _ (fun n => hclock (n + 1)) (h _ _ ⟨hclock 0, rfl⟩)

end Program

namespace Operation

/-- Runs an operation undisturbed with the times that a clock shows one after another. -/
def runOn (clock : Nat → Instant) (op : Operation α) (s : Store) : Except StoreError α × Store :=
  Program.runOn clock op.run s

theorem Ensures.runOn {shown : Instant → Prop} {clock : Nat → Instant}
    (hclock : ∀ n, shown (clock n)) {allowed : Store → Call → Prop}
    {post : Store → Except StoreError α → Prop} {op : Operation α} {s : Store}
    (h : op.Ensures (.alone shown) allowed post s) :
    post (op.runOn clock s).2 (op.runOn clock s).1 :=
  Program.Ensures.runOn hclock h

/-- Whatever the clock shows. -/
theorem Ensures.runOn_any {allowed : Store → Call → Prop}
    {post : Store → Except StoreError α → Prop} {op : Operation α} {s : Store}
    (h : op.Ensures (.alone fun _ => True) allowed post s) (clock : Nat → Instant) :
    post (op.runOn clock s).2 (op.runOn clock s).1 :=
  h.runOn fun n => (True.intro : (fun _ : Instant => True) (clock n))

theorem runOn_map (g : α → β) (op : Operation α) (clock : Nat → Instant) (s : Store) :
    (g <$> op).runOn clock s = ((op.runOn clock s).1.map g, (op.runOn clock s).2) := by
  change Program.runOn clock (Program.bind op.run (ExceptT.bindCont fun a => pure (g a))) s =
    ((Program.runOn clock op.run s).1.map g, (Program.runOn clock op.run s).2)
  generalize op.run = p
  induction p generalizing clock s with
  | done r => cases r <;> rfl
  | call c next ih => exact ih _ _ _
  | clock next ih => exact ih _ _ _

theorem runAt_eq_runOn (now : Instant) (op : Operation α) (s : Store) :
    op.runAt now s = op.runOn (fun _ => now) s := (Program.runOn_const now op.run s).symm

end Operation

/-- Nobody else touches the store, and a clock shows its times one after another. -/
def Surroundings.timed : Surroundings (Store × (Nat → Instant)) where
  answers x c a y := (c.run x.1).1 = a ∧ ((c.run x.1).2, x.2) = y
  reads x t y := x.2 0 = t ∧ (x.1, fun n => x.2 (n + 1)) = y

/-- What a program ensures with a clock holds where it ends. -/
theorem Program.Ensures.runOn_timed {allowed : Store × (Nat → Instant) → Call → Prop}
    {post : Store → α → Prop} {p : Program α} {clock : Nat → Instant} {s : Store}
    (h : Ensures .timed allowed (fun x a => post x.1 a) (s, clock) p) :
    post (p.runOn clock s).2 (p.runOn clock s).1 := by
  induction p generalizing s clock with
  | done a => exact h
  | call c next ih => exact ih _ (h.2 _ _ ⟨rfl, rfl⟩)
  | clock next ih => exact ih _ (h _ _ ⟨rfl, rfl⟩)

theorem Operation.Ensures.runOn_timed {allowed : Store × (Nat → Instant) → Call → Prop}
    {post : Store → Except StoreError α → Prop} {op : Operation α} {clock : Nat → Instant}
    {s : Store} (h : op.Ensures .timed allowed (fun x r => post x.1 r) (s, clock)) :
    post (op.runOn clock s).2 (op.runOn clock s).1 :=
  Program.Ensures.runOn_timed h

/-- What a program comes to with a clock is what it ensures. -/
theorem Program.runOn_eq_iff {p : Program α} {clock : Nat → Instant} {s : Store}
    {result : α × Store} : p.runOn clock s = result ↔
      Ensures .timed (fun _ _ => True) (fun x a => (a, x.1) = result) (s, clock) p := by
  induction p generalizing s clock with
  | done a => rfl
  | call c next ih =>
    refine (ih _).trans ⟨fun h => ⟨True.intro, fun a y hy => ?_⟩, fun h => h.2 _ _ ⟨rfl, rfl⟩⟩
    obtain ⟨rfl, rfl⟩ := hy
    exact h
  | clock next ih =>
    refine (ih _).trans ⟨fun h t y hy => ?_, fun h => h _ _ ⟨rfl, rfl⟩⟩
    obtain ⟨rfl, rfl⟩ := hy
    exact h

/-- The result and the store that an operation is ensured to end with with a clock. -/
theorem Operation.Ensures.runOn_eq {op : Operation α} {clock : Nat → Instant} {s : Store}
    {result : Except StoreError α × Store}
    (h : op.Ensures .timed (fun _ _ => True) (fun x r => (r, x.1) = result) (s, clock)) :
    op.runOn clock s = result :=
  Program.runOn_eq_iff.2 h

/-! ## Whatever the answers -/

/-- What a program has seen: what a call has answered, or a time. -/
inductive Event
  | called (c : Call) (answer : c.Answer)
  | read (t : Instant)

/-- Any answer and any time may come; what has come is recorded. -/
def Surroundings.recorded : Surroundings (List Event) where
  answers past c a past' := past' = past ++ [.called c a]
  reads past t past' := past' = past ++ [.read t]

namespace Program

/-- Having seen `past`, a program has come to `rest`. -/
inductive Leads (p : Program α) : List Event → Program α → Prop
  | start : Leads p [] p
  | call {past : List Event} {c : Call} {next : c.Answer → Program α} (a : c.Answer)
      (h : Leads p past (.call c next)) : Leads p (past ++ [.called c a]) (next a)
  | clock {past : List Event} {next : Instant → Program α} (t : Instant)
      (h : Leads p past (.clock next)) : Leads p (past ++ [.read t]) (next t)

/-- What a program ensures whatever the answers, its rest ensures after what has been seen. -/
theorem Leads.ensures {allowed : List Event → Call → Prop} {post : List Event → α → Prop}
    {p rest : Program α} {past : List Event} (h : p.Leads past rest)
    (hp : Ensures .recorded allowed post [] p) : Ensures .recorded allowed post past rest := by
  induction h with
  | start => exact hp
  | call a _ ih => exact ih.2 a _ rfl
  | clock t _ ih => exact ih t _ rfl

/-- What a program ensures whatever the answers, it ensures alone with any store. -/
theorem Ensures.runOn_recorded {allowed : List Event → Call → Prop} {post : α → Prop}
    {p : Program α} {past : List Event}
    (h : Ensures .recorded allowed (fun _ a => post a) past p) (clock : Nat → Instant)
    (s : Store) : post (p.runOn clock s).1 := by
  induction p generalizing past clock s with
  | done a => exact h
  | call c next ih => exact ih _ (h.2 _ _ rfl) clock _
  | clock next ih => exact ih _ (h _ _ rfl) _ s

end Program

end Syndication
