import Syndication.Proofs.Program.System
import Syndication.Proofs.Program.Timeline
/-!
# The latest target wins

Where a source leads is told by the latest of its mappings: by the instant in its column, then by
its id. Looking sources up all at once gives what looking them up one by one gives, and when
requests run one after another with a clock that never goes back a source leads where it has last
been recorded to lead, also when the clock has not moved in between (`Store.latest_target_wins`).
Instants are those of the years 0 to 9999, where the order of columns as texts is the order in time.
-/

namespace Syndication

/-! ## Later mappings -/

/-- One mapping is earlier than another: by the instant in its column, then by its id. -/
def MappingRow.Earlier (m n : MappingRow) : Prop :=
  ∃ t u, Stamp.decode m.createdAt = .ok t ∧ Stamp.decode n.createdAt = .ok u ∧
    (t < u ∨ t = u ∧ m.id < n.id)

namespace Store

variable {s : Store} {source : String} {m n : MappingRow}

/-- Every instant in the log of mappings lies in the years 0 to 9999. -/
def LogInYears (s : Store) : Prop :=
  ∀ t : Instant, ∀ m ∈ s.mappings, t.stamp = m.createdAt → t.InYears

/-- The mapping of a source that is later than all its other ones. -/
structure IsLatest (s : Store) (source : String) (m : MappingRow) : Prop where
  mem : m ∈ s.mappings
  source_eq : m.source = source
  earlier : ∀ n ∈ s.mappings, n.source = source → n ≠ m → n.Earlier m

theorem InYears.log (hy : s.InYears) : s.LogInYears := fun t m hm ht =>
  hy t (mem_stamps.2 (.inr (.inr (.inl ⟨m, hm, ht.symm⟩))))

/-- The order by which mappings are ranked is the order in time. -/
theorem Valid.earlier_of_key_lt (h : s.Valid) (hy : s.LogInYears) (hm : m ∈ s.mappings)
    (hn : n ∈ s.mappings) (hlt : m.key < n.key) : m.Earlier n := by
  obtain ⟨t, ht⟩ := h.mappingStamps m hm
  obtain ⟨u, hu⟩ := h.mappingStamps n hn
  have hty := hy t m hm ht.2
  have huy := hy u n hn hu.2
  refine ⟨t, u, ht.decode hty, hu.decode huy, ?_⟩
  rw [← ht.lt_iff hu hty huy]
  refine (MappingRow.key_lt.1 hlt).imp_right fun hids => ⟨?_, hids.2⟩
  exact ht.unique (hids.1 ▸ hu)

theorem Valid.isLatest (h : s.Valid) (hy : s.LogInYears) (hm : s.mapping? source = some m) :
    s.IsLatest source m := by
  obtain ⟨hmem, hsource, hfirst⟩ := h.mapping?_eq_some.1 hm
  refine ⟨hmem, hsource, fun n hn hnsource hne => h.earlier_of_key_lt hy hn hmem ?_⟩
  exact lt_of_le_of_ne (hfirst n hn hnsource) fun hkey => hne (h.mapping_eq_of_key hn hmem hkey)

end Store

/-! ## The last mapping recorded -/

/-- What is in increasing order has its greatest value last. -/
theorem argmax_eq_getLast? {α β : Type} [LinearOrder β] {f : α → β} {l : List α}
    (h : l.Pairwise fun a b => f a < f b) : l.argmax f = l.getLast? := by
  induction l using List.reverseRecOn with
  | nil => rfl
  | append_singleton l a ih =>
    obtain ⟨hl, -, hlast⟩ := List.pairwise_append.1 h
    rw [List.argmax_concat, ih hl, List.getLast?_concat]
    cases hbefore : l.getLast? with
    | none => rfl
    | some b => exact if_pos (hlast b (List.mem_of_getLast? hbefore) a List.mem_cons_self)

namespace Moment

variable {m : Moment} {source : String}

/-- Where a source has last been recorded to lead. -/
def lastTarget? (m : Moment) (source : String) : Option String :=
  ((m.recorded.filter fun p => p.1 = source).getLast?).map (·.2)

/-- The mapping that counts is the last one of its source. -/
theorem Sound.mapping?_eq_getLast? (h : m.Sound) (hy : m.store.LogInYears) (source : String) :
    m.store.mapping? source = (m.store.mappings.filter fun r => r.source = source).getLast? := by
  have hkeys : m.store.mappings.Pairwise fun r r' => r.key < r'.key := by
    refine h.ordered.imp_of_mem fun {r r'} hr hr' hle => ?_
    obtain ⟨hids, t, t', ht, ht', hle⟩ := hle
    have hlt := ht.lt_iff ht' (hy t r hr ht.2) (hy t' r' hr' ht'.2)
    rw [MappingRow.key_lt, hlt]
    by_cases hlater : t < t'
    · exact .inl hlater
    · obtain rfl := Instant.le_antisymm hle hlater
      exact .inr ⟨ht.2.symm.trans ht'.2, hids⟩
  rw [Store.mapping?_eq_argmax]
  exact argmax_eq_getLast? (hkeys.sublist List.filter_sublist)

theorem Sound.target_eq (h : m.Sound) (hy : m.store.LogInYears) (source : String) :
    (m.store.mapping? source).map (·.target) = m.lastTarget? source := by
  rw [h.mapping?_eq_getLast? hy, lastTarget?, ← h.recorded, List.filter_map, List.getLast?_map,
    Option.map_map]
  rfl

end Moment

/-! ## Look-ups -/

namespace Store

open Operation

theorem runOn_findTarget (clock : Nat → Instant) (s : Store) (source : String) :
    (findTarget source).runOn clock s = (.ok ((s.mapping? source).map (·.target)), s) := rfl

theorem runOn_findTargets (clock : Nat → Instant) (s : Store) (sources : List String) :
    (findTargets sources).runOn clock s = (.ok (s.targetsOf sources), s) := rfl

/-- **The latest target wins.** In every state that can be reached looking sources up all at once
gives each source that has a mapping the target of its latest one, as looking it up alone does.
And when requests run one after another, with a clock that never goes back, a source leads where it
has last been recorded to lead. -/
theorem latest_target_wins :
    (∀ x : System, x.Reachable → x.store.LogInYears → ∀ (sources : List String)
      (clock : Nat → Instant), ∃ targets,
        (findTargets sources).runOn clock x.store = (.ok targets, x.store) ∧
        (targets.map (·.1)).Nodup ∧
        (∀ source, source ∈ targets.map (·.1) ↔
          source ∈ sources ∧ ∃ m ∈ x.store.mappings, m.source = source) ∧
        (∀ source ∈ sources, (findTarget source).runOn clock x.store =
          (.ok (targets.lookup source), x.store)) ∧
        ∀ p ∈ targets, ∃ m, x.store.IsLatest p.1 m ∧ m.target = p.2) ∧
    ∀ (t : Instant) (m : Moment), (Moment.start t).Passes m → m.store.LogInYears →
      ∀ (source : String) (clock : Nat → Instant),
        (findTarget source).runOn clock m.store = (.ok (m.lastTarget? source), m.store) := by
  constructor
  · intro x hx hy sources clock
    have hvalid := hx.sound.valid
    refine ⟨_, runOn_findTargets clock x.store sources, hvalid.nodup_targetsOf sources,
      fun source => ?_, fun source hsource => ?_, ?_⟩
    · rw [List.mem_map]
      constructor
      · rintro ⟨⟨_, target⟩, hmem, rfl⟩
        obtain ⟨hsource, htarget⟩ := hvalid.mem_targetsOf.1 hmem
        obtain ⟨m, hm, -⟩ := Option.map_eq_some_iff.1 htarget
        obtain ⟨hm, hmsource, -⟩ := hvalid.mapping?_eq_some.1 hm
        exact ⟨hsource, m, hm, hmsource⟩
      · rintro ⟨hsource, m, hm, hmsource⟩
        cases hfound : x.store.mapping? source with
        | none => exact absurd hmsource (mapping?_eq_none.1 hfound m hm)
        | some n =>
          refine ⟨(source, n.target), hvalid.mem_targetsOf.2 ⟨hsource, ?_⟩, rfl⟩
          rw [hfound, Option.map_some]
    · rw [runOn_findTarget, hvalid.lookup_targetsOf hsource]
    · rintro ⟨source, target⟩ hmem
      obtain ⟨m, hm, htarget⟩ := Option.map_eq_some_iff.1 (hvalid.mem_targetsOf.1 hmem).2
      exact ⟨m, hvalid.isLatest hy hm, htarget⟩
  · intro t m hm hy source clock
    rw [runOn_findTarget, (hm.sound (Moment.sound_start t)).target_eq hy]

/-- The second day. -/
def nextDay : Instant :=
  { Instant.epoch with day := 1, firstDay_le := by decide, le_lastDay := by decide }

/-- A mapping that is later than the next one of its source, and two mappings of one time. -/
def recordingOutOfOrder : List Action :=
  [.start (.recordMappingAt "http://a.com/" "http://a.com/new" nextDay), .call 0,
    .start (.recordMapping "http://a.com/" "http://a.com/old"), .read 1 .epoch, .call 1,
    .start (.recordMapping "http://b.com/" "http://b.com/old"), .read 2 .epoch, .call 2,
    .start (.recordMapping "http://b.com/" "http://b.com/new"), .read 3 .epoch, .call 3]

theorem proper_recordingOutOfOrder : ∀ a ∈ recordingOutOfOrder, a.Proper := by
  simp [recordingOutOfOrder, Action.Proper, Request.Proper]

/-- Sources with several mappings, one asked for twice and one that is not known; and a source
recorded twice while the clock stands still. -/
theorem latest_target_wins_outOfOrder :
    (∃ x : System, ∃ targets, x.Reachable ∧ x.store.LogInYears ∧
      (findTargets ["http://b.com/", "http://a.com/", "http://c.com/", "http://b.com/"]).runOn
        (fun _ => .epoch) x.store = (.ok targets, x.store) ∧
      targets.lookup "http://a.com/" = some "http://a.com/new" ∧
      targets.lookup "http://b.com/" = some "http://b.com/new" ∧
      (∀ source ∈ ["http://b.com/", "http://a.com/", "http://c.com/", "http://b.com/"],
        (findTarget source).runOn (fun _ => .epoch) x.store =
          (.ok (targets.lookup source), x.store)) ∧
      ∀ p ∈ targets, ∃ m, x.store.IsLatest p.1 m ∧ m.target = p.2) ∧
    ∃ m : Moment, (Moment.start .epoch).Passes m ∧ m.store.LogInYears ∧
      m.lastTarget? "http://b.com/" = some "http://b.com/new" ∧
      (findTarget "http://b.com/").runOn (fun _ => .epoch) m.store =
        (.ok (m.lastTarget? "http://b.com/"), m.store) := by
  constructor
  · let epoch : String := "1970-01-01T00:00:00.000000Z"
    let s : Store :=
      ⟨[], [], [⟨1, "http://a.com/", "http://a.com/new", "1970-01-02T00:00:00.000000Z"⟩,
        ⟨2, "http://a.com/", "http://a.com/old", epoch⟩,
        ⟨3, "http://b.com/", "http://b.com/old", epoch⟩,
        ⟨4, "http://b.com/", "http://b.com/new", epoch⟩], [], 0⟩
    have hplay : (System.initial.play recordingOutOfOrder).map (·.store) = some s := by
      decide +kernel
    obtain ⟨x, hx, hstore⟩ := System.exists_of_play proper_recordingOutOfOrder hplay
    have hyears : x.store.InYears := hstore ▸ inYears_of_decode (by decide +kernel)
    have hy := hyears.log
    obtain ⟨targets, hrun, -, -, hlookup, hlatest⟩ := latest_target_wins.1 x hx hy
      ["http://b.com/", "http://a.com/", "http://c.com/", "http://b.com/"] fun _ => .epoch
    have htargets : targets = [("http://a.com/", "http://a.com/new"),
        ("http://b.com/", "http://b.com/new")] := by
      rw [runOn_findTargets, hstore] at hrun
      have : s.targetsOf ["http://b.com/", "http://a.com/", "http://c.com/", "http://b.com/"] =
        [("http://a.com/", "http://a.com/new"), ("http://b.com/", "http://b.com/new")] := by
        decide +kernel
      exact (Except.ok.inj (congrArg Prod.fst hrun)).symm.trans this
    exact ⟨x, targets, hx, hy, hrun, by rw [htargets]; rfl, by rw [htargets]; rfl, hlookup, hlatest⟩
  · let clock : Nat → Instant := fun _ => .epoch
    let m₁ : Moment := (Moment.start .epoch).after
      (.recordMapping "http://b.com/" "http://b.com/old") clock .epoch
    let m : Moment := m₁.after (.recordMapping "http://b.com/" "http://b.com/new") clock .epoch
    have hclock : Shows .epoch .epoch clock :=
      ⟨fun _ => Instant.le_refl _, fun _ => Instant.le_refl _, fun _ => Instant.le_refl _⟩
    have hm₁ : (Moment.start .epoch).Passes m₁ := .request .refl True.intro True.intro hclock
    have hm : (Moment.start .epoch).Passes m := .request hm₁ True.intro True.intro hclock
    have hyears : m.store.InYears := inYears_of_decode (by decide +kernel)
    have hy := hyears.log
    exact ⟨m, hm, hy, rfl, latest_target_wins.2 _ m hm hy "http://b.com/" clock⟩

end Store

end Syndication
