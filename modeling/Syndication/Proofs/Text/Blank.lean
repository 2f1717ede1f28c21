import Mathlib.Data.List.TakeWhile
import Syndication.Text.Blank
/-!
# Blanks around a text

Blanks are the characters that Unicode calls white space (`Text.isBlank_iff`). Every text is a core
without blanks at its ends that stands between blanks, and cutting off the blanks leaves this core
(`Text.trim_eq_iff`).
-/

namespace Syndication.Text

/-! ## White space -/

/-- The characters with the Unicode property `White_Space`. -/
def whiteSpace : List Char :=
  ['\t', '\n', '\x0b', '\x0c', '\r', ' ', '\x85', '\u00a0', '\u1680', '\u2000', '\u2001', '\u2002',
    '\u2003', '\u2004', '\u2005', '\u2006', '\u2007', '\u2008', '\u2009', '\u200a', '\u2028',
    '\u2029', '\u202f', '\u205f', '\u3000']

theorem isBlank_iff {c : Char} : isBlank c = true ↔ c ∈ whiteSpace := by
  -- both sides speak of the code point
  simp only [isBlank, ↓Char.isValue, Char.le_def, Char.reduceVal, UInt32.le_iff_toNat_le,
    UInt32.reduceToNat, Char.toNat_val, ← Char.toNat_inj, Char.reduceToNat, Bool.or_eq_true,
    Bool.and_eq_true, decide_eq_true_eq, whiteSpace, List.mem_cons, List.not_mem_nil, or_false]
  omega

theorem isBlank_eq_false {c : Char} : isBlank c = false ↔ c ∉ whiteSpace := by
  rw [← isBlank_iff, Bool.not_eq_true]

/-- A text has no blank at either end. -/
structure IsTrimmed (text : List Char) : Prop where
  head : ∀ c ∈ text.head?, c ∉ whiteSpace
  last : ∀ c ∈ text.getLast?, c ∉ whiteSpace

/-- The text is the core with blanks around it. -/
def IsPadded (core text : List Char) : Prop :=
  ∃ before after, (∀ c ∈ before, c ∈ whiteSpace) ∧ (∀ c ∈ after, c ∈ whiteSpace) ∧
    text = before ++ core ++ after

variable {text core before after : List Char}

/-! ## One end -/

theorem trimEnd_eq (text : List Char) : trimEnd text = (trimStart text.reverse).reverse := rfl

theorem trimStart_append (h : ∀ c ∈ before, c ∈ whiteSpace) :
    trimStart (before ++ text) = trimStart text :=
  List.dropWhile_append_of_pos fun c hc => isBlank_iff.2 (h c hc)

theorem trimEnd_append (h : ∀ c ∈ after, c ∈ whiteSpace) :
    trimEnd (text ++ after) = trimEnd text := by
  rw [trimEnd_eq, List.reverse_append, trimStart_append (by simpa using h), ← trimEnd_eq]

theorem trimStart_cons {c : Char} (h : isBlank c = false) (rest : List Char) :
    trimStart (c :: rest) = c :: rest :=
  List.dropWhile_cons_of_neg (by simp [h])

theorem trimStart_of_head (h : ∀ c ∈ text.head?, c ∉ whiteSpace) : trimStart text = text := by
  cases text with
  | nil => rfl
  | cons c text => exact trimStart_cons (isBlank_eq_false.2 (h c rfl)) text

theorem trimEnd_of_last (h : ∀ c ∈ text.getLast?, c ∉ whiteSpace) : trimEnd text = text := by
  rw [trimEnd_eq, trimStart_of_head (by simpa using h), List.reverse_reverse]

theorem head_trimStart (text : List Char) : ∀ c ∈ (trimStart text).head?, c ∉ whiteSpace := by
  intro c hc
  have hhead := List.head?_dropWhile_not isBlank text
  rw [show (text.dropWhile isBlank).head? = some c from hc] at hhead
  exact isBlank_eq_false.1 hhead

theorem exists_trimStart (text : List Char) :
    ∃ before, (∀ c ∈ before, c ∈ whiteSpace) ∧ text = before ++ trimStart text :=
  ⟨text.takeWhile isBlank, fun _ hc => isBlank_iff.1 (List.mem_takeWhile_imp hc),
    List.takeWhile_append_dropWhile.symm⟩

theorem exists_trimEnd (text : List Char) :
    ∃ after, (∀ c ∈ after, c ∈ whiteSpace) ∧ text = trimEnd text ++ after := by
  obtain ⟨before, hbefore, hsplit⟩ := exists_trimStart text.reverse
  refine ⟨before.reverse, by simpa using hbefore, ?_⟩
  rw [trimEnd_eq, ← List.reverse_append, ← hsplit, List.reverse_reverse]

/-! ## Both ends -/

theorem trim_between (hcore : IsTrimmed core) (hbefore : ∀ c ∈ before, c ∈ whiteSpace)
    (hafter : ∀ c ∈ after, c ∈ whiteSpace) : trim (before ++ core ++ after) = core := by
  have hstart : trimStart (before ++ core ++ after) = trimStart (core ++ after) := by
    rw [List.append_assoc, trimStart_append hbefore]
  rw [trim, hstart]
  cases core with
  | nil =>
    -- all is blank
    rw [List.nil_append, ← List.append_nil after, trimStart_append hafter]
    rfl
  | cons c core =>
    have hstays : trimStart (c :: core ++ after) = c :: core ++ after :=
      trimStart_of_head hcore.head
    rw [hstays, trimEnd_append hafter, trimEnd_of_last hcore.last]

theorem isTrimmed_trim (text : List Char) : IsTrimmed (trim text) where
  head c hc := by
    obtain ⟨after, -, hsplit⟩ := exists_trimEnd (trimStart text)
    refine head_trimStart text c ?_
    rw [hsplit, List.head?_append, show (trimEnd (trimStart text)).head? = some c from hc]
    rfl
  last c hc := by
    refine head_trimStart (trimStart text).reverse c ?_
    rwa [trim, trimEnd_eq, List.getLast?_reverse] at hc

/-- **Cutting off the blanks leaves the core of a text.** -/
theorem trim_eq_iff : trim text = core ↔ IsTrimmed core ∧ IsPadded core text := by
  constructor
  · rintro rfl
    obtain ⟨before, hbefore, hstart⟩ := exists_trimStart text
    obtain ⟨after, hafter, hend⟩ := exists_trimEnd (trimStart text)
    refine ⟨isTrimmed_trim text, before, after, hbefore, hafter, ?_⟩
    rw [trim, List.append_assoc, ← hend, ← hstart]
  · rintro ⟨hcore, before, after, hbefore, hafter, rfl⟩
    exact trim_between hcore hbefore hafter

/-- A blank at the end makes no difference. -/
theorem trim_concat {c : Char} (h : c ∈ whiteSpace) (text : List Char) :
    trim (text ++ [c]) = trim text := by
  have htrim : trim text = trim text := rfl
  obtain ⟨hcore, before, after, hbefore, hafter, hsplit⟩ := trim_eq_iff.1 htrim
  refine trim_eq_iff.2 ⟨hcore, before, after ++ [c], hbefore, ?_, ?_⟩
  · exact List.forall_mem_append.2 ⟨hafter, by simpa using h⟩
  · rw [← List.append_assoc, ← hsplit]

end Syndication.Text
