import Syndication.Proofs.Program.System
/-!
# A request among others

Between two calls of a request the others that run beside it may have changed the store. Of the
store that a call meets it is known that it extends the one that the call before has left, that it
is valid and that its instants lie in the years 0 to 9999 (`Surroundings.shared`). What an operation
ensures with that holds wherever its request stands in a run whose instants stay in these years
(`System.ReachableInYears.ensures`).
-/

namespace Syndication

/-- Others run on the store as well. What comes is recorded. -/
def Surroundings.shared : Surroundings (Store × List Event) where
  answers x c a y := ∃ s : Store, x.1.Extends s ∧ s.Valid ∧ s.InYears ∧
    (c.run s).2.Valid ∧ (c.run s).2.InYears ∧ (c.run s).1 = a ∧
      ((c.run s).2, x.2 ++ [.called c a]) = y
  reads x t y := (x.1, x.2 ++ [.read t]) = y

theorem Store.inYears_empty : empty.InYears := by
  intro t ht
  cases ht

namespace System

/-! ## Runs that stay in the years -/

/-- The initial state leads to a state, and every instant stored on the way lies in the years 0 to
9999. -/
def ReachableInYears (x : System) : Prop :=
  initial.Runs (fun y a => ∀ z, y.act a = some z → z.store.InYears) x

namespace ReachableInYears

variable {x : System}

theorem inYears (h : x.ReachableInYears) : x.store.InYears := by
  cases h with
  | refl => exact Store.inYears_empty
  | step _ _ hP hz => exact hP _ hz

theorem reachable (h : x.ReachableInYears) : x.Reachable := by
  induction h with
  | refl => exact .refl
  | step _ ha _ hz ih => exact .step ih ha True.intro hz

/-- A request stands, among others, where its operation has come to: the store extends one from
which on the rest ensures what the operation does. -/
theorem ensures {request : Request} {allowed : Store × List Event → Call → Prop}
    {post : Store × List Event → Except StoreError Reply → Prop}
    (hop : ∀ s : Store, s.Valid → s.InYears →
      request.operation.Ensures .shared allowed post (s, []))
    (h : x.ReachableInYears) {i : Nat} {past : List Event}
    {rest : Program (Except StoreError Reply)}
    (hi : x.running[i]? = some ⟨request, past, rest⟩) :
    ∃ s : Store, s.Extends x.store ∧ Program.Ensures .shared allowed post (s, past) rest := by
  induction h generalizing past rest with
  | refl => cases hi
  | @step y z a hrun ha hP hz ih =>
    have hy : y.ReachableInYears := hrun
    have hsound := hy.reachable.sound
    have hz' : z.ReachableInYears := .step hrun ha hP hz
    rcases running_act_cases hz hi with hsame | ⟨rfl, rfl, rfl⟩ |
      ⟨earlier, c, next, rfl, hj, hstore, rfl, rfl⟩ | ⟨earlier, t, next, rfl, hj, rfl, rfl⟩
    · obtain ⟨s, hs, hrest⟩ := ih hsame
      exact ⟨s, hs.trans (hsound.extends_act hz), hrest⟩
    · exact ⟨z.store, .refl _, hop z.store hz'.reachable.sound.valid hz'.inYears⟩
    · obtain ⟨s, hs, -, hrest⟩ := ih hj
      have hvalid := hz'.reachable.sound.valid
      have hyears := hz'.inYears
      rw [hstore] at hvalid hyears ⊢
      exact ⟨_, .refl _, hrest _ _
        ⟨y.store, hs, hsound.valid, hy.inYears, hvalid, hyears, rfl, rfl⟩⟩
    · obtain ⟨s, hs, hrest⟩ := ih hj
      exact ⟨s, hs.trans (hsound.extends_act hz), hrest _ _ rfl⟩

end ReachableInYears

/-- Steps that lead through stores of which every instant can be read. -/
theorem reachableInYears_of_play {x : System} {actions : List Action}
    (hproper : ∀ a ∈ actions, a.Proper) (hx : initial.play actions = some x)
    (hread : ∀ before ∈ actions.inits, ((initial.play before).all fun y =>
      y.store.stamps.all fun text => (Stamp.decode text).toBool) = true) :
    x.ReachableInYears := by
  induction actions using List.reverseRecOn generalizing x with
  | nil => exact Option.some.inj hx ▸ .refl
  | append_singleton actions a ih =>
    obtain ⟨y, hy, hz⟩ := play_concat.1 hx
    refine .step (ih (fun b hb => hproper b (List.mem_append_left _ hb)) hy fun before hbefore =>
      hread before ?_) (hproper a (List.mem_append_right _ List.mem_cons_self)) ?_ hz
    · rw [List.mem_inits] at hbefore ⊢
      exact hbefore.trans (List.prefix_append _ _)
    · intro z hz'
      obtain rfl := Option.some.inj (hz.symm.trans hz')
      have hall := hread (actions ++ [a]) (by rw [List.mem_inits])
      rw [hx, Option.all_some, List.all_eq_true] at hall
      exact Store.inYears_of_decode hall

end System

end Syndication
