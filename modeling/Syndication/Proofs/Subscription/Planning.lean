import Mathlib.Data.List.Sort
import Syndication.Subscription.Plan
/-!
# What plans list

A plan lists a pending row for each address of a list that leads to no known feed, and for each feed
that some address leads to and the user does not hold a row bound to it, with the first of these
addresses; the rows stand in the order of the first places of their addresses (`Planned.IsPlan`).
Nothing else is a plan for the list, so that a second plan binds to no feed and the order of the
addresses only decides by which address a feed is bound: `Planned.list_by_first_places`.
-/

namespace Syndication.Planned

variable {user f : Int} {feedOf : String → Option Int} {seen urls urls' : List String}
  {held held' : List Int} {url : String} {p : Planned} {plan plan' : List Planned}

/-! ## Rows that a list asks for -/

/-- A row that the addresses of a list ask for. -/
inductive Asked (user : Int) (feedOf : String → Option Int) (held : List Int)
    (urls : List String) : Planned → Prop
  /-- The address leads to no known feed. -/
  | pending {url : String} (hurl : url ∈ urls) (hfeed : feedOf url = none) :
      Asked user feedOf held urls (.pending user url)
  /-- No address before it leads to the feed, which is not held. -/
  | bound {url : String} {f : Int} (hurl : urls.find? (feedOf · = some f) = some url)
      (hheld : f ∉ held) : Asked user feedOf held urls (.bound user f url)

namespace Asked

theorem feedId_eq (h : Asked user feedOf held urls p) : p.feedId = feedOf p.url := by
  cases h with
  | pending _ hfeed => exact hfeed.symm
  | bound hurl _ => simpa [Planned.bound, eq_comm] using List.find?_some hurl

theorem url_mem (h : Asked user feedOf held urls p) : p.url ∈ urls := by
  cases h with
  | pending hurl _ => exact hurl
  | bound hurl _ => exact List.mem_of_find?_eq_some hurl

theorem notMem_held (h : Asked user feedOf held urls p) (hf : p.feedId = some f) : f ∉ held := by
  cases h with
  | pending _ _ => cases hf
  | bound _ hheld => exact Option.some.inj hf ▸ hheld

theorem eq_pending (h : Asked user feedOf held urls p) (hf : p.feedId = none) :
    p = .pending user p.url := by
  cases h with
  | pending _ _ => rfl
  | bound _ _ => cases hf

theorem eq_bound (h : Asked user feedOf held urls p) (hf : p.feedId = some f) :
    urls.find? (feedOf · = some f) = some p.url ∧ p = .bound user f p.url := by
  cases h with
  | pending _ _ => cases hf
  | bound hurl _ => exact Option.some.inj hf ▸ ⟨hurl, rfl⟩

/-- Held feeds count as a set. -/
theorem of_held (h : Asked user feedOf held urls p) (hsub : ∀ f ∈ held', f ∈ held) :
    Asked user feedOf held' urls p := by
  cases h with
  | pending hurl hfeed => exact .pending hurl hfeed
  | bound hurl hheld => exact .bound hurl fun hf => hheld (hsub _ hf)

end Asked

/-- No row is for an address that leads to a held feed. -/
theorem Asked.url_ne (h : Asked user feedOf held urls p) (hfeed : feedOf url = some f)
    (hheld : f ∈ held) : p.url ≠ url := by
  rintro rfl
  exact h.notMem_held (h.feedId_eq.trans hfeed) hheld

theorem asked_cons_of_none (h : feedOf url = none) :
    Asked user feedOf held (url :: urls) p ↔
      p = .pending user url ∨ Asked user feedOf held urls p := by
  have hskip (f : Int) : (url :: urls).find? (feedOf · = some f) =
      urls.find? (feedOf · = some f) := List.find?_cons_of_neg (by simp [h])
  constructor
  · rintro (⟨hurl, hfeed⟩ | ⟨hurl, hheld⟩)
    · rcases List.mem_cons.1 hurl with rfl | hurl
      · exact .inl rfl
      · exact .inr (.pending hurl hfeed)
    · exact .inr (.bound (hskip _ ▸ hurl) hheld)
  · rintro (rfl | ⟨hurl, hfeed⟩ | ⟨hurl, hheld⟩)
    · exact .pending List.mem_cons_self h
    · exact .pending (List.mem_cons_of_mem _ hurl) hfeed
    · exact .bound ((hskip _).trans hurl) hheld

/-- An address that leads to a feed takes it from those after it. -/
theorem asked_cons_of_some (h : feedOf url = some f) :
    Asked user feedOf held (url :: urls) p ↔
      f ∉ held ∧ p = .bound user f url ∨ Asked user feedOf (f :: held) urls p := by
  constructor
  · rintro (⟨hurl, hfeed⟩ | @⟨_, g, hurl, hheld⟩)
    · rcases List.mem_cons.1 hurl with rfl | hurl
      · cases h.symm.trans hfeed
      · exact .inr (.pending hurl hfeed)
    · by_cases hg : g = f
      · subst hg
        rw [List.find?_cons_of_pos (by simp [h])] at hurl
        exact .inl ⟨hheld, by rw [Option.some.inj hurl]⟩
      · rw [List.find?_cons_of_neg (by simpa [h, eq_comm] using hg)] at hurl
        exact .inr (.bound hurl (by simpa [hg] using hheld))
  · rintro (⟨hheld, rfl⟩ | ⟨hurl, hfeed⟩ | @⟨_, g, hurl, hheld⟩)
    · exact .bound (List.find?_cons_of_pos (by simp [h])) hheld
    · exact .pending (List.mem_cons_of_mem _ hurl) hfeed
    · obtain ⟨hg, hheld⟩ := not_or.1 (mt List.mem_cons.2 hheld)
      exact .bound ((List.find?_cons_of_neg (by simpa [h, eq_comm] using hg)).trans hurl) hheld

theorem asked_cons_of_held (h : feedOf url = some f) (hheld : f ∈ held) :
    Asked user feedOf held (url :: urls) p ↔ Asked user feedOf held urls p := by
  rw [asked_cons_of_some h]
  constructor
  · rintro (⟨hfree, -⟩ | hasked)
    · exact absurd hheld hfree
    · exact hasked.of_held fun g hg => List.mem_cons_of_mem _ hg
  · exact fun hasked => .inr (hasked.of_held (List.forall_mem_cons.2 ⟨hheld, fun _ hg => hg⟩))

/-! ## Rows that a plan lists -/

/-- The feeds to which addresses lead that have been seen count as held. -/
def IsCovered (feedOf : String → Option Int) (seen : List String) (held : List Int) : Prop :=
  ∀ url ∈ seen, ∀ f, feedOf url = some f → f ∈ held

theorem isCovered_nil : IsCovered feedOf [] held := fun _ h => by cases h

namespace IsCovered

theorem cons_of_none (h : IsCovered feedOf seen held) (hfeed : feedOf url = none) :
    IsCovered feedOf (url :: seen) held :=
  List.forall_mem_cons.2 ⟨fun _ hf => absurd (hfeed.symm.trans hf) (by simp), h⟩

theorem cons_of_held (h : IsCovered feedOf seen held) (hfeed : feedOf url = some f)
    (hheld : f ∈ held) : IsCovered feedOf (url :: seen) held :=
  List.forall_mem_cons.2 ⟨fun _ hg => Option.some.inj (hfeed.symm.trans hg) ▸ hheld, h⟩

theorem hold (h : IsCovered feedOf seen held) (f : Int) : IsCovered feedOf seen (f :: held) :=
  fun url hurl g hg => List.mem_cons_of_mem _ (h url hurl g hg)

end IsCovered

/-- **A plan lists what its addresses ask for.** What carries the induction is that the addresses
seen before are covered. -/
theorem mem_listFrom_iff (hseen : IsCovered feedOf seen held) :
    p ∈ listFrom user feedOf seen held urls ↔
      p.url ∉ seen ∧ Asked user feedOf held urls p := by
  fun_induction listFrom user feedOf seen held urls with
  | case1 seen held => exact iff_of_false List.not_mem_nil fun h => by cases h.2.url_mem
  | case2 seen held url urls hmem ih =>
    rw [ih hseen]
    refine and_congr_right fun hp => ?_
    cases hfeed : feedOf url with
    | none =>
      have hne : p ≠ .pending user url := by
        rintro rfl
        exact hp hmem
      rw [asked_cons_of_none hfeed, or_iff_right hne]
    | some f => rw [asked_cons_of_held hfeed (hseen url hmem f hfeed)]
  | case3 seen held url urls hmem f hfeed hheld ih =>
    rw [ih (hseen.cons_of_held hfeed hheld), asked_cons_of_held hfeed hheld, List.mem_cons, not_or,
      and_assoc]
    exact and_iff_right_of_imp fun h => h.2.url_ne hfeed hheld
  | case4 seen held url urls hmem f hfeed hheld ih =>
    have hlater := ih ((hseen.hold f).cons_of_held hfeed List.mem_cons_self)
    rw [List.mem_cons, hlater, asked_cons_of_some hfeed]
    constructor
    · rintro (rfl | ⟨hp, hasked⟩)
      · exact ⟨hmem, .inl ⟨hheld, rfl⟩⟩
      · exact ⟨fun h => hp (List.mem_cons_of_mem _ h), .inr hasked⟩
    · rintro ⟨hp, (⟨-, rfl⟩ | hasked)⟩
      · exact .inl rfl
      · have hne := hasked.url_ne hfeed List.mem_cons_self
        exact .inr ⟨List.not_mem_cons_of_ne_of_not_mem hne hp, hasked⟩
  | case5 seen held url urls hmem hfeed ih =>
    have hlater := ih (hseen.cons_of_none hfeed)
    rw [List.mem_cons, hlater, asked_cons_of_none hfeed]
    constructor
    · rintro (rfl | ⟨hp, hasked⟩)
      · exact ⟨hmem, .inl rfl⟩
      · exact ⟨fun h => hp (List.mem_cons_of_mem _ h), .inr hasked⟩
    · rintro ⟨hp, (rfl | hasked)⟩
      · exact .inl rfl
      · by_cases heq : p.url = url
        -- the address again: its row has been listed
        · exact .inl (heq ▸ hasked.eq_pending (hasked.feedId_eq.trans (heq ▸ hfeed)))
        · exact .inr ⟨List.not_mem_cons_of_ne_of_not_mem heq hp, hasked⟩

/-! ## Order -/

/-- A plan names no address of those seen and no feed of those held. -/
theorem fresh_of_mem_listFrom {p : Planned} (h : p ∈ listFrom user feedOf seen held urls) :
    p.url ∉ seen ∧ ∀ f, p.feedId = some f → f ∉ held := by
  fun_induction listFrom user feedOf seen held urls with
  | case1 => cases h
  | case2 seen held url urls hseen ih => exact ih h
  | case3 seen held url urls hseen feed hfeed hmem ih =>
    obtain ⟨hurl, hheld⟩ := ih h
    exact ⟨fun hp => hurl (List.mem_cons_of_mem _ hp), hheld⟩
  | case4 seen held url urls hseen feed hfeed hmem ih =>
    rcases List.mem_cons.1 h with rfl | h
    · refine ⟨hseen, fun f hf => ?_⟩
      obtain rfl : feed = f := Option.some.inj hf
      exact hmem
    · obtain ⟨hurl, hheld⟩ := ih h
      exact ⟨fun hp => hurl (List.mem_cons_of_mem _ hp),
        fun f hf hp => hheld f hf (List.mem_cons_of_mem _ hp)⟩
  | case5 seen held url urls hseen hfeed ih =>
    rcases List.mem_cons.1 h with rfl | h
    · exact ⟨hseen, fun f hf => by cases hf⟩
    · obtain ⟨hurl, hheld⟩ := ih h
      exact ⟨fun hp => hurl (List.mem_cons_of_mem _ hp), hheld⟩

theorem url_ne_of_mem_listFrom (h : p ∈ listFrom user feedOf seen held urls) (hurl : url ∈ seen) :
    p.url ≠ url := by
  rintro rfl
  exact (fresh_of_mem_listFrom h).1 hurl

/-- One row stands before another if the first place of its address does. -/
def Before (urls : List String) (p q : Planned) : Prop := urls.idxOf p.url < urls.idxOf q.url

instance : Std.Irrefl (Before urls) where
  irrefl _ := Nat.lt_irrefl _

instance : Std.Antisymm (Before urls) where
  antisymm _ _ hpq hqp := absurd hqp (Nat.lt_asymm hpq)

theorem before_cons_of_eq {q : Planned} (hp : p.url = url) (hq : q.url ≠ url) :
    Before (url :: urls) p q := by
  rw [Before, hp, List.idxOf_cons_self, List.idxOf_cons_ne _ hq.symm]
  exact Nat.succ_pos _

/-- An address that has been seen moves all rows by one place. -/
theorem pairwise_before_cons (hurl : url ∈ seen)
    (h : (listFrom user feedOf seen held urls).Pairwise (Before urls)) :
    (listFrom user feedOf seen held urls).Pairwise (Before (url :: urls)) := by
  refine h.imp_of_mem fun {p q} hp hq hbefore => ?_
  rw [Before, List.idxOf_cons_ne _ (url_ne_of_mem_listFrom hp hurl).symm,
    List.idxOf_cons_ne _ (url_ne_of_mem_listFrom hq hurl).symm]
  exact Nat.succ_lt_succ hbefore

/-- Rows stand in the order of the first places of their addresses. -/
theorem pairwise_before_listFrom :
    (listFrom user feedOf seen held urls).Pairwise (Before urls) := by
  fun_induction listFrom user feedOf seen held urls with
  | case1 => exact .nil
  | case2 seen held url urls hmem ih => exact pairwise_before_cons hmem ih
  | case3 seen held url urls hmem f hfeed hheld ih =>
    exact pairwise_before_cons List.mem_cons_self ih
  | case4 seen held url urls hmem f hfeed hheld ih =>
    refine .cons (fun q hq => before_cons_of_eq rfl ?_) (pairwise_before_cons List.mem_cons_self ih)
    exact url_ne_of_mem_listFrom hq List.mem_cons_self
  | case5 seen held url urls hmem hfeed ih =>
    refine .cons (fun q hq => before_cons_of_eq rfl ?_) (pairwise_before_cons List.mem_cons_self ih)
    exact url_ne_of_mem_listFrom hq List.mem_cons_self

/-- Planned rows for different addresses and different feeds. -/
def Apart (p q : Planned) : Prop := p.url ≠ q.url ∧ ∀ f, p.feedId = some f → q.feedId ≠ some f

theorem apart_listFrom : (listFrom user feedOf seen held urls).Pairwise Apart := by
  fun_induction listFrom user feedOf seen held urls with
  | case1 => exact .nil
  | case2 seen held url urls hseen ih => exact ih
  | case3 seen held url urls hseen feed hfeed hmem ih => exact ih
  | case4 seen held url urls hseen feed hfeed hmem ih =>
    refine .cons (fun q hq => ?_) ih
    obtain ⟨hurl, hheld⟩ := fresh_of_mem_listFrom hq
    refine ⟨fun heq => hurl (heq ▸ List.mem_cons_self), fun f hf hqf => ?_⟩
    obtain rfl : feed = f := Option.some.inj hf
    exact hheld feed hqf List.mem_cons_self
  | case5 seen held url urls hseen hfeed ih =>
    refine .cons (fun q hq => ?_) ih
    obtain ⟨hurl, -⟩ := fresh_of_mem_listFrom hq
    exact ⟨fun heq => hurl (heq ▸ List.mem_cons_self), fun f hf => by cases hf⟩

/-! ## The plan for a list -/

/-- What makes a list of rows the plan for a list of addresses. -/
structure IsPlan (user : Int) (feedOf : String → Option Int) (held : List Int)
    (urls : List String) (plan : List Planned) : Prop where
  /-- One pending row for each address that leads to no known feed. -/
  pending : ∀ url ∈ urls, feedOf url = none → plan.filter (·.url = url) = [.pending user url]
  /-- One bound row for each feed that some address leads to and that is not held, with the first
  of its addresses. -/
  bound : ∀ f ∉ held, ∀ url, urls.find? (feedOf · = some f) = some url →
    plan.filter (·.feedId = some f) = [.bound user f url]
  /-- No other rows. -/
  only : ∀ p ∈ plan, Asked user feedOf held urls p
  inOrder : plan.Pairwise (Before urls)

/-- The feeds that a plan binds to. -/
def feeds (plan : List Planned) : List Int := plan.filterMap (·.feedId)

/-- The rows of a plan that are bound to no feed. -/
def unbound (plan : List Planned) : List Planned := plan.filter (·.feedId = none)

theorem mem_feeds : f ∈ feeds plan ↔ ∃ p ∈ plan, p.feedId = some f := List.mem_filterMap

theorem mem_unbound : p ∈ unbound plan ↔ p ∈ plan ∧ p.feedId = none := by
  simp [unbound]

theorem filter_eq_singleton (hnodup : plan.Nodup) {q : Planned → Bool} (hp : p ∈ plan)
    (hq : ∀ r ∈ plan, q r = true ↔ r = p) : plan.filter q = [p] := by
  refine List.perm_singleton.1 ((List.perm_ext_iff_of_nodup (hnodup.filter q)
    (List.nodup_singleton p)).2 fun r => ?_)
  rw [List.mem_filter, List.mem_singleton]
  exact ⟨fun h => (hq r h.1).1 h.2, fun h => h ▸ ⟨hp, (hq p hp).2 rfl⟩⟩

namespace IsPlan

theorem mem_iff (h : IsPlan user feedOf held urls plan) :
    p ∈ plan ↔ Asked user feedOf held urls p := by
  refine ⟨h.only p, fun hasked => ?_⟩
  cases hasked with
  | pending hurl hfeed =>
    exact (List.mem_filter.1 (h.pending _ hurl hfeed ▸ List.mem_singleton_self _)).1
  | bound hurl hheld =>
    exact (List.mem_filter.1 (h.bound _ hheld _ hurl ▸ List.mem_singleton_self _)).1

theorem unique (h : IsPlan user feedOf held urls plan) (h' : IsPlan user feedOf held urls plan') :
    plan = plan' :=
  h.inOrder.eq_of_mem_iff h'.inOrder fun _ => h.mem_iff.trans h'.mem_iff.symm

theorem mem_feeds_iff (h : IsPlan user feedOf held urls plan) :
    f ∈ feeds plan ↔ f ∉ held ∧ ∃ url ∈ urls, feedOf url = some f := by
  rw [mem_feeds]
  constructor
  · rintro ⟨p, hp, hf⟩
    have hasked := h.only p hp
    exact ⟨hasked.notMem_held hf, p.url, hasked.url_mem, hasked.feedId_eq ▸ hf⟩
  · rintro ⟨hheld, url, hurl, hfeed⟩
    obtain ⟨first, hfirst⟩ := Option.isSome_iff_exists.1
      (List.find?_isSome.2 ⟨url, hurl, by simpa using hfeed⟩ :
        (urls.find? (feedOf · = some f)).isSome)
    exact ⟨.bound user f first, h.mem_iff.2 (.bound hfirst hheld), rfl⟩

theorem mem_unbound_iff (h : IsPlan user feedOf held urls plan) :
    p ∈ unbound plan ↔ ∃ url ∈ urls, feedOf url = none ∧ p = .pending user url := by
  rw [mem_unbound, h.mem_iff]
  constructor
  · rintro ⟨hasked, hf⟩
    exact ⟨p.url, hasked.url_mem, hasked.feedId_eq ▸ hf, hasked.eq_pending hf⟩
  · rintro ⟨url, hurl, hfeed, rfl⟩
    exact ⟨.pending hurl hfeed, rfl⟩

theorem nodup_unbound (h : IsPlan user feedOf held urls plan) : (unbound plan).Nodup :=
  h.inOrder.nodup.filter _

/-- No feed is bound to twice. -/
theorem nodup_feeds (h : IsPlan user feedOf held urls plan) : (feeds plan).Nodup := by
  refine List.pairwise_filterMap.2 (h.inOrder.nodup.imp_of_mem
    fun {p q} hp hq hne f hf g hg hfg => hne ?_)
  subst hfg
  obtain ⟨hfirst, hbound⟩ := (h.only p hp).eq_bound hf
  obtain ⟨hfirst', hbound'⟩ := (h.only q hq).eq_bound hg
  rw [hbound, hbound', Option.some.inj (hfirst.symm.trans hfirst')]

/-- The unbound rows of a plan are the plan when its feeds count as held. -/
theorem replan (h : IsPlan user feedOf held urls plan)
    (h' : IsPlan user feedOf (feeds plan ++ held) urls plan') : plan' = unbound plan := by
  refine h'.inOrder.eq_of_mem_iff (h.inOrder.filter _) fun p => ?_
  rw [mem_unbound, h.mem_iff, h'.mem_iff]
  constructor
  · intro hasked
    have hheld : Asked user feedOf held urls p :=
      hasked.of_held fun f hf => List.mem_append_right _ hf
    refine ⟨hheld, Option.eq_none_iff_forall_ne_some.2 fun f hf => ?_⟩
    -- a feed that is bound to now was bound to before
    exact hasked.notMem_held hf
      (List.mem_append_left _ (mem_feeds.2 ⟨p, h.mem_iff.2 hheld, hf⟩))
  · rintro ⟨hasked, hf⟩
    rw [hasked.eq_pending hf]
    exact .pending hasked.url_mem (hasked.feedId_eq ▸ hf)

/-- Plans for lists of the same addresses bind to the same feeds. -/
theorem perm_feeds (h : IsPlan user feedOf held urls plan)
    (h' : IsPlan user feedOf held urls' plan') (hurls : ∀ url, url ∈ urls ↔ url ∈ urls') :
    (feeds plan).Perm (feeds plan') := by
  refine (List.perm_ext_iff_of_nodup h.nodup_feeds h'.nodup_feeds).2 fun f => ?_
  simp only [h.mem_feeds_iff, h'.mem_feeds_iff, hurls]

/-- Plans for lists of the same addresses leave the same addresses pending. -/
theorem perm_unbound (h : IsPlan user feedOf held urls plan)
    (h' : IsPlan user feedOf held urls' plan') (hurls : ∀ url, url ∈ urls ↔ url ∈ urls') :
    (unbound plan).Perm (unbound plan') := by
  refine (List.perm_ext_iff_of_nodup h.nodup_unbound h'.nodup_unbound).2 fun p => ?_
  simp only [h.mem_unbound_iff, h'.mem_unbound_iff, hurls]

end IsPlan

theorem isPlan_listFrom : IsPlan user feedOf held urls (listFrom user feedOf [] held urls) := by
  have hmem {p : Planned} : p ∈ listFrom user feedOf [] held urls ↔
      Asked user feedOf held urls p := by
    simpa using mem_listFrom_iff isCovered_nil
  have hnodup : (listFrom user feedOf [] held urls).Nodup := pairwise_before_listFrom.nodup
  refine ⟨fun url hurl hfeed => ?_, fun f hheld url hurl => ?_, fun p => hmem.1,
    pairwise_before_listFrom⟩
  · refine filter_eq_singleton hnodup (hmem.2 (.pending hurl hfeed)) fun r hr => ?_
    rw [decide_eq_true_iff]
    refine ⟨?_, fun h => h ▸ rfl⟩
    rintro rfl
    exact (hmem.1 hr).eq_pending ((hmem.1 hr).feedId_eq.trans hfeed)
  · refine filter_eq_singleton hnodup (hmem.2 (.bound hurl hheld)) fun r hr => ?_
    rw [decide_eq_true_iff]
    refine ⟨fun hf => ?_, fun h => h ▸ rfl⟩
    obtain ⟨hfirst, hbound⟩ := (hmem.1 hr).eq_bound hf
    rw [hbound, Option.some.inj (hfirst.symm.trans hurl)]

/-- The feed that an address leads to. -/
def reached (target : String → Option String) (feed : String → Option Int) (url : String) :
    Option Int :=
  (target url).bind feed

theorem isPlan_list (user : Int) (target : String → Option String) (feed : String → Option Int)
    (held : List Int) (urls : List String) :
    IsPlan user (reached target feed) held urls (list user target feed held urls) :=
  isPlan_listFrom

/-- **A plan is determined by the first places of its addresses.** It is the only list that has one
pending row for each address without a known feed, one bound row for each feed that is reached and
not held, with the first address that reaches it, and no other rows, all in the order of the list.
So it binds to no feed twice and to none that is held; planning again with its feeds held leaves its
unbound rows; and any order of the addresses binds to the same feeds and leaves the same addresses
pending. -/
theorem list_by_first_places (user : Int) (target : String → Option String)
    (feed : String → Option Int) (held : List Int) (urls : List String) {plan : List Planned}
    (hplan : list user target feed held urls = plan) :
    (∀ rows, rows = plan ↔ IsPlan user (reached target feed) held urls rows) ∧
    ((feeds plan).Nodup ∧ ∀ f ∈ feeds plan, f ∉ held) ∧
    list user target feed (feeds plan ++ held) urls = unbound plan ∧
    ∀ urls', urls'.Perm urls →
      (feeds (list user target feed held urls')).Perm (feeds plan) ∧
      (unbound (list user target feed held urls')).Perm (unbound plan) := by
  have h := isPlan_list user target feed held urls
  rw [hplan] at h
  refine ⟨fun rows => ⟨fun hrows => hrows ▸ h, fun hrows => hrows.unique h⟩,
    ⟨h.nodup_feeds, fun f hf => (h.mem_feeds_iff.1 hf).1⟩,
    h.replan (isPlan_list user target feed _ urls), fun urls' hperm => ?_⟩
  have h' := isPlan_list user target feed held urls'
  exact ⟨h'.perm_feeds h fun _ => hperm.mem_iff, h'.perm_unbound h fun _ => hperm.mem_iff⟩

/-- Two canonical addresses are known for feed 7. -/
def sampleFeed (canonical : String) : Option Int :=
  List.lookup canonical [("http://a.com/rss.xml", 7), ("http://a.com/atom.xml", 7),
    ("http://b.com/rss.xml", 8)]

/-- Each of them is reached by an address of its own, and one address is resolved without a feed. -/
def sampleTarget (url : String) : Option String :=
  List.lookup url [("http://a.com/", "http://a.com/rss.xml"),
    ("http://www.a.com/", "http://a.com/atom.xml"), ("http://b.com/", "http://b.com/rss.xml"),
    ("http://c.com/", "http://c.com/rss.xml")]

/-- A list with all of them and, twice, an address that is not resolved. -/
def sampleUrls : List String :=
  ["http://c.com/", "http://www.a.com/", "http://x.com/", "http://b.com/", "http://a.com/",
    "http://x.com/"]

/-- The plan for the list when feed 8 is held. -/
def samplePlan : List Planned :=
  [.pending 1 "http://c.com/", .bound 1 7 "http://www.a.com/", .pending 1 "http://x.com/"]

/-- Backwards, feed 7 is bound by the other address that leads to it. -/
theorem list_by_first_places_sample :
    list 1 sampleTarget sampleFeed [8] sampleUrls = samplePlan ∧
    IsPlan 1 (reached sampleTarget sampleFeed) [8] sampleUrls samplePlan ∧
    list 1 sampleTarget sampleFeed (feeds samplePlan ++ [8]) sampleUrls = unbound samplePlan ∧
    list 1 sampleTarget sampleFeed [8] sampleUrls.reverse =
      [.pending 1 "http://x.com/", .bound 1 7 "http://a.com/", .pending 1 "http://c.com/"] ∧
    sampleUrls.reverse.Perm sampleUrls ∧
    (feeds (list 1 sampleTarget sampleFeed [8] sampleUrls.reverse)).Perm (feeds samplePlan) := by
  have hplan : list 1 sampleTarget sampleFeed [8] sampleUrls = samplePlan := by decide +kernel
  have hperm : sampleUrls.reverse.Perm sampleUrls := sampleUrls.reverse_perm
  obtain ⟨hunique, -, hreplan, hany⟩ := list_by_first_places 1 sampleTarget sampleFeed [8]
    sampleUrls hplan
  exact ⟨hplan, (hunique samplePlan).1 rfl, hreplan, by decide +kernel, hperm,
    (hany sampleUrls.reverse hperm).1⟩

end Syndication.Planned
