import Syndication.Proofs.Program.Ensures
import Syndication.Session.Basic
/-!
# Tasks of commands on a store

A task runs on a store as its operations do, one after another (`Task.ensures_ofOperation_bind`,
`Task.runOn_ofOperation`). What a command does from the reading of its file on is
`Session.carryOut`: a session is that between the opening and the keeping of a store
(`Session.run_eq`), and with a clock that shows its times one after another it runs the command's
task with these times (`Session.Ends.iff_runOn`).
-/

namespace Syndication

variable {α β : Type}

/-! ## Tasks -/

namespace Task

/-- Runs a task undisturbed with the times that a clock shows one after another. -/
def runOn (clock : Nat → Instant) (task : Task α) (s : Store) : Except Failure α × Store :=
  Program.runOn clock task.run s

section Surroundings

variable {σ : Type} {w : Surroundings σ} {allowed : σ → Call → Prop} {x : σ}

theorem ensures_ofOperation {op : Operation α} {post : σ → Except Failure α → Prop} :
    Program.Ensures w allowed post x (ofOperation op).run ↔
      op.Ensures w allowed (fun y r => post y (r.mapError .store)) x := by
  change Program.Ensures w allowed post x
    (Program.bind op.run fun r => .done (r.mapError .store)) ↔ _
  rw [Program.ensures_bind]
  rfl

/-- A task goes on with what its operation gives; an error of the operation ends it. -/
theorem ensures_ofOperation_bind {op : Operation α} {f : α → Task β}
    {post : σ → Except Failure β → Prop} :
    Program.Ensures w allowed post x (ofOperation op >>= f).run ↔ op.Ensures w allowed
      (fun y r => match r with
        | .ok a => Program.Ensures w allowed post y (f a).run
        | .error e => post y (.error (.store e))) x := by
  change Program.Ensures w allowed post x
    (Program.bind (ofOperation op).run (ExceptT.bindCont f)) ↔ _
  rw [Program.ensures_bind, ensures_ofOperation]
  have cont (y : σ) (r : Except StoreError α) :
      Program.Ensures w allowed post y (ExceptT.bindCont f (r.mapError .store)) ↔
        match r with
        | .ok a => Program.Ensures w allowed post y (f a).run
        | .error e => post y (.error (.store e)) := by
    cases r with
    | ok a => rfl
    | error e => rfl
  exact ⟨.mono (fun _ _ h => h) fun y r => (cont y r).1,
    .mono (fun _ _ h => h) fun y r => (cont y r).2⟩

end Surroundings

/-- A task that is one operation gives what the operation gives. -/
theorem runOn_ofOperation {op : Operation α} {clock : Nat → Instant} {s s' : Store}
    {r : Except StoreError α} (h : op.runOn clock s = (r, s')) :
    (ofOperation op).runOn clock s = (r.mapError .store, s') := by
  refine Program.runOn_eq_iff.2 (ensures_ofOperation.2 ?_)
  refine (Program.runOn_eq_iff.1 h).mono (fun _ _ h => h) fun y a ha => ?_
  obtain ⟨rfl, rfl⟩ := Prod.mk.inj ha
  rfl

end Task

/-! ## Commands -/

namespace Session

/-- What a command does from the reading of its file on. -/
def carryOut {m : Type → Type} [Monad m] (host : Host m) (user : Option Int) (size : Nat)
    (command : Command) (s : Store) : Step m (Except Failure (Option Json) × Store) := do
  let task ← taskOf host user size command
  ExceptT.lift (perform host task s)

/-- A session carries out its command between the opening and the keeping of the store. -/
theorem run_eq {m : Type → Type} [Monad m] [LawfulMonad m] (host : Host m)
    (arguments : List String) : run host arguments = (do
      let invocation ← readArguments host arguments
      let settings ← loadSettings host invocation.settings
      let location := Location.ofText settings.storePath
      match ← host.openStore location with
      | none => throw (.unusableStore settings.storePath)
      | some store => do
        let (result, store) ←
          carryOut host invocation.user settings.batchSize invocation.command store
        host.saveStore location store
        match result with
        | .ok value => pure (answerText value)
        | .error failure => throw failure) := by
  unfold run carryOut
  refine bind_congr fun invocation => bind_congr fun settings => bind_congr fun found => ?_
  cases found with
  | none => rfl
  | some store => exact (bind_assoc ..).symm

theorem runOn_shown (toJson : α → Json) (task : Task α) (clock : Nat → Instant) (s : Store) :
    (shown toJson task).runOn clock s =
      ((task.runOn clock s).1.map fun a => some (toJson a), (task.runOn clock s).2) := by
  change Program.runOn clock (Program.bind task.run
      (ExceptT.bindCont fun a => pure (some (toJson a)))) s =
    ((Program.runOn clock task.run s).1.map fun a => some (toJson a),
      (Program.runOn clock task.run s).2)
  generalize task.run = p
  induction p generalizing clock s with
  | done r => cases r <;> rfl
  | call c next ih => exact ih _ _ _
  | clock next ih => exact ih _ _ _

/-- A host whose clock shows its times one after another. -/
abbrev ClockHost := Host (StateM (Nat → Instant))

/-- The time of a host is the next that its clock shows. -/
def Ticks (host : ClockHost) : Prop :=
  ∀ clock, host.now clock = (clock 0, fun n => clock (n + 1))

/-- On a store and with a clock, a command ends with a result and another store. -/
def Ends (host : ClockHost) (user : Option Int) (size : Nat) (command : Command)
    (clock : Nat → Instant) (s : Store) (result : Except Failure (Option Json)) (s' : Store) :
    Prop :=
  (carryOut host user size command s clock).1 = .ok (result, s')

variable {host : ClockHost} {user : Option Int} {size : Nat} {command : Command}
  {clock : Nat → Instant} {s s' : Store} {result : Except Failure (Option Json)}

theorem perform_eq_runOn (hticks : Ticks host) (task : Task α) :
    (perform host task s clock).1 = task.runOn clock s := by
  let callIn (c : Call) : StateT Store (StateM (Nat → Instant)) c.Answer := fun s => pure (c.run s)
  let clockIn : StateT Store (StateM (Nat → Instant)) Instant := StateT.lift host.now
  change ((task.run.runWith callIn clockIn) s clock).1 = Program.runOn clock task.run s
  generalize task.run = p
  induction p generalizing clock s with
  | done r => rfl
  | call c next ih => exact ih _
  | clock next ih =>
    change ((next (host.now clock).1).runWith callIn clockIn s (host.now clock).2).1 = _
    rw [hticks clock]
    exact ih _

/-- A command whose task is settled runs it with the times of the clock. -/
theorem Ends.iff_runOn (hticks : Ticks host) {task : Task (Option Json)}
    (htask : taskOf host user size command = pure task) :
    Ends host user size command clock s result s' ↔ task.runOn clock s = (result, s') := by
  unfold Ends carryOut
  rw [htask, pure_bind, ← perform_eq_runOn hticks]
  exact ⟨Except.ok.inj, congrArg _⟩

/-- A command ends with one result and one store. -/
theorem Ends.unique {result' : Except Failure (Option Json)} {s'' : Store}
    (h : Ends host user size command clock s result s')
    (h' : Ends host user size command clock s result' s'') : result = result' ∧ s' = s'' :=
  Prod.mk.inj (Except.ok.inj (h.symm.trans h'))

/-- A command that shows what its task gives. -/
theorem Ends.of_runOn (hticks : Ticks host) {toJson : α → Json} {task : Task α}
    (htask : taskOf host user size command = pure (shown toJson task)) {r : Except Failure α}
    (h : task.runOn clock s = (r, s')) :
    Ends host user size command clock s (r.map fun a => some (toJson a)) s' := by
  rw [Ends.iff_runOn hticks htask, runOn_shown, h]

/-- Finishing a crawl reads the file of the payload. -/
theorem taskOf_finishCrawl {path : String} {body : List UInt8}
    (hread : host.readFile path = pure (some body)) (user : Option Int) (size : Nat) (id : Int)
    (report : CrawlReport) :
    taskOf host user size (.finishCrawl id path report) =
      pure (shown Feed.toJson (Task.finishCrawl host.compress id body report)) := by
  have hbytes : readBytes host path = pure body := by
    unfold readBytes
    rw [hread]
    rfl
  change (readBytes host path >>= fun bytes =>
    pure (shown Feed.toJson (Task.finishCrawl host.compress id bytes report))) = _
  rw [hbytes, pure_bind]

end Session

end Syndication
