import Syndication.Store.Call
/-!
# Programs

An operation on a store is a program: calls and readings of the clock in an order that may depend
on what they gave. Between two of them the steps of other operations may come. `runWith` runs a
program with any way to make a call and to read the clock; `runAt` runs it undisturbed on a store
with a clock that stands still.
-/

namespace Syndication

/-- Calls and readings of the clock, up to a result. -/
inductive Program (α : Type) where
  | done (result : α)
  | call (c : Call) (next : c.Answer → Program α)
  | clock (next : Instant → Program α)

namespace Program

variable {α β : Type}

/-- One program after another. -/
protected def bind : Program α → (α → Program β) → Program β
  | done a, f => f a
  | call c next, f => call c fun answer => (next answer).bind f
  | clock next, f => clock fun t => (next t).bind f

instance : Monad Program where
  pure := done
  bind := Program.bind

/-- Runs a program with a way to make a call and a way to read the clock. -/
def runWith {m : Type → Type} [Monad m] (callIn : (c : Call) → m c.Answer) (clockIn : m Instant) :
    Program α → m α
  | done a => pure a
  | call c next => do runWith callIn clockIn (next (← callIn c))
  | clock next => do runWith callIn clockIn (next (← clockIn))

/-- Runs a program undisturbed while the clock stands at `now`. -/
def runAt (now : Instant) : Program α → Store → α × Store
  | done a, s => (a, s)
  | call c next, s => runAt now (next (c.run s).1) (c.run s).2
  | clock next, s => runAt now (next now) s

end Program

/-- An operation on a store: a program that ends with a result or an error. -/
abbrev Operation := ExceptT StoreError Program

namespace Operation

variable {α : Type}

/-- Makes a call. -/
def call (c : Call) : Operation c.Answer := ExceptT.lift (.call c .done)

/-- The time at the precision of a store. -/
def now : Operation Instant := ExceptT.lift (.clock fun t => .done t.truncate)

/-- A clock value after `previous`: the time, unless it has not moved past `previous` yet. -/
def tickAfter (previous : Instant) : Operation Instant := do
  let now ← now
  match Instant.advance? previous now with
  | some t => pure t
  | none => throw .clockOverflow

/-- A value that loading a row gave. -/
def loaded (value : Except StoreError α) : Operation α := ExceptT.mk (pure value)

/-- Runs an operation undisturbed while the clock stands at `now`. -/
def runAt (now : Instant) (op : Operation α) (s : Store) : Except StoreError α × Store :=
  Program.runAt now op.run s

end Operation

end Syndication
