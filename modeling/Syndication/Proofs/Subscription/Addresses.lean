import Syndication.Proofs.Text.Blank
import Syndication.Subscription.Addresses
/-!
# Lists of addresses are read line by line

A list of addresses may be cut at any line ending, and each line holds the address that stands
between its blanks, or none. What a list holds, written one address a line, is a list that holds
the same: `Addresses.ofText_line_by_line`.
-/

namespace Syndication

namespace Text

variable {ending line text : List Char}

/-! ## Lines -/

theorem linesFrom_cons {c : Char} (hc : c ≠ '\n') (line text : List Char) :
    linesFrom line (c :: text) = linesFrom (c :: line) text :=
  linesFrom.eq_3 line c text hc

/-- Ending a line cuts off at most a carriage return. -/
theorem endLine_cases (line : List Char) :
    endLine line = line.reverse ∨ ∃ rest, line = '\r' :: rest ∧ endLine line = rest.reverse := by
  unfold endLine
  split
  · exact .inr ⟨_, rfl, rfl⟩
  · exact .inl rfl

theorem trim_endLine (line : List Char) : trim (endLine line) = trim line.reverse := by
  rcases endLine_cases line with hline | ⟨rest, rfl, hline⟩
  · rw [hline]
  · rw [hline, List.reverse_cons, trim_concat (by decide)]

/-- A line ending ends the line that has been read, up to blanks at its end. -/
theorem linesFrom_ending (h : ending = ['\n'] ∨ ending = ['\r', '\n']) (line text : List Char) :
    ∃ ended, linesFrom line (ending ++ text) = ended :: lines text ∧
      trim ended = trim line.reverse := by
  rcases h with rfl | rfl
  · exact ⟨endLine line, rfl, trim_endLine line⟩
  · exact ⟨line.reverse, rfl, rfl⟩

theorem notMem_of_mem_linesFrom (hline : '\n' ∉ line) {ended : List Char}
    (h : ended ∈ linesFrom line text) : '\n' ∉ ended := by
  fun_induction linesFrom line text with
  | case1 => cases h
  | case2 line hne =>
    obtain rfl := List.mem_singleton.1 h
    simpa using hline
  | case3 line rest ih =>
    rcases List.mem_cons.1 h with rfl | h
    · rcases endLine_cases line with heq | ⟨start, rfl, heq⟩
      · simpa [heq] using hline
      · rw [heq, List.mem_reverse]
        exact fun hmem => hline (List.mem_cons_of_mem _ hmem)
    · exact ih List.not_mem_nil h
  | case4 line c rest hc ih =>
    exact ih (List.not_mem_cons_of_ne_of_not_mem (Ne.symm hc) hline) h

/-- A text without line feeds goes on with the line that has been read. -/
theorem linesFrom_of_notMem (h : '\n' ∉ text) (hne : line.reverse ++ text ≠ []) :
    linesFrom line text = [line.reverse ++ text] := by
  fun_induction linesFrom line text with
  | case1 line hline => simp_all
  | case2 line hline => rw [List.append_nil]
  | case3 line rest ih => simp at h
  | case4 line c rest hc ih =>
    rw [ih (fun hrest => h (List.mem_cons_of_mem _ hrest)) (by simp)]
    simp

end Text

namespace Addresses

open Text

variable {ending line text entry : List Char}

/-! ## Entries -/

/-- What a line holds that holds an address: no blank at either end, and no comment. -/
structure IsAddress (entry : List Char) : Prop extends IsTrimmed entry where
  nonempty : entry ≠ []
  noComment : entry.head? ≠ some '#'
  oneLine : '\n' ∉ entry

theorem isEntry_iff : isEntry line = true ↔ line ≠ [] ∧ line.head? ≠ some '#' := by
  simp [isEntry]

/-- A list may be cut at a line ending in whatever line it stands. -/
theorem filter_linesFrom_append (h : ending = ['\n'] ∨ ending = ['\r', '\n'])
    (line a b : List Char) : ((linesFrom line (a ++ ending ++ b)).map trim).filter isEntry =
      ((linesFrom line a).map trim).filter isEntry ++ entries b := by
  fun_induction linesFrom line a with
  | case1 line hline =>
    -- an empty line is ended, which holds nothing
    obtain ⟨ended, hlines, htrim⟩ := linesFrom_ending h line b
    obtain rfl : line = [] := List.isEmpty_iff.1 hline
    rw [List.nil_append, hlines, List.map_cons, htrim]
    rfl
  | case2 line hline =>
    obtain ⟨ended, hlines, htrim⟩ := linesFrom_ending h line b
    rw [List.nil_append, hlines, List.map_cons, htrim, ← List.singleton_append,
      List.filter_append]
    rfl
  | case3 line rest ih =>
    simp only [List.cons_append, linesFrom, List.map_cons, List.filter_cons, ih]
    split <;> rfl
  | case4 line c rest hc ih =>
    rw [List.cons_append, List.cons_append, linesFrom_cons hc]
    exact ih

theorem entries_append (h : ending = ['\n'] ∨ ending = ['\r', '\n']) (a b : List Char) :
    entries (a ++ ending ++ b) = entries a ++ entries b :=
  filter_linesFrom_append h [] a b

theorem entries_of_notMem (h : '\n' ∉ text) : entries text = [trim text].filter isEntry := by
  cases text with
  | nil => rfl
  | cons c text => rw [entries, lines, linesFrom_of_notMem h (by simp)]; rfl

theorem isAddress_of_mem (h : entry ∈ entries text) : IsAddress entry := by
  obtain ⟨hentry, hisEntry⟩ := List.mem_filter.1 h
  obtain ⟨line, hline, htrim⟩ := List.mem_map.1 hentry
  obtain ⟨hcore, before, after, -, -, rfl⟩ := trim_eq_iff.1 htrim
  obtain ⟨hne, hcomment⟩ := isEntry_iff.1 hisEntry
  have hfeed := notMem_of_mem_linesFrom (by simp) hline
  exact { hcore with
    nonempty := hne
    noComment := hcomment
    oneLine := fun hmem => hfeed (by simp [hmem]) }

/-- One line holds the address that stands between its blanks. -/
theorem mem_entries_of_notMem (h : '\n' ∉ text) :
    entry ∈ entries text ↔ IsAddress entry ∧ IsPadded entry text := by
  constructor
  · intro hmem
    refine ⟨isAddress_of_mem hmem, ?_⟩
    rw [entries_of_notMem h] at hmem
    obtain rfl := List.mem_singleton.1 (List.mem_filter.1 hmem).1
    exact (trim_eq_iff.1 rfl).2
  · rintro ⟨haddress, hpadded⟩
    have hentry := isEntry_iff.2 ⟨haddress.nonempty, haddress.noComment⟩
    rw [entries_of_notMem h, trim_eq_iff.2 ⟨haddress.toIsTrimmed, hpadded⟩]
    exact List.mem_filter.2 ⟨List.mem_singleton_self entry, hentry⟩

theorem entries_eq_singleton (h : IsAddress entry) : entries entry = [entry] := by
  have hentry := isEntry_iff.2 ⟨h.nonempty, h.noComment⟩
  rw [entries_of_notMem h.oneLine, trim_eq_iff.2 ⟨h.toIsTrimmed, [], [], by simp, by simp, by simp⟩,
    List.filter_cons_of_pos hentry, List.filter_nil]

/-! ## Lists -/

theorem mem_ofText {text e : String} : e ∈ ofText text ↔ e.toList ∈ entries text.toList := by
  rw [ofText, List.mem_map]
  constructor
  · rintro ⟨entry, hentry, rfl⟩
    rwa [String.toList_ofList]
  · exact fun h => ⟨e.toList, h, String.ofList_toList⟩

section

variable {ending : String} (hending : ending = "\n" ∨ ending = "\r\n")
include hending

theorem ofText_append (a b : String) : ofText (a ++ ending ++ b) = ofText a ++ ofText b := by
  have hchars : ending.toList = ['\n'] ∨ ending.toList = ['\r', '\n'] := by
    rcases hending with rfl | rfl
    · exact .inl rfl
    · exact .inr rfl
  simp only [ofText, String.toList_append, entries_append hchars, List.map_append]

/-- Addresses written one a line are read again. -/
theorem ofText_intercalate {es : List String} (h : ∀ e ∈ es, IsAddress e.toList) :
    ofText (ending.intercalate es) = es := by
  induction es with
  | nil => rw [String.intercalate_nil]; rfl
  | cons e es ih =>
    obtain ⟨he, hes⟩ := List.forall_mem_cons.1 h
    have hfirst : ofText e = [e] := by
      rw [ofText, entries_eq_singleton he, List.map_singleton, String.ofList_toList]
    rcases eq_or_ne es [] with rfl | hne
    · rw [String.intercalate_singleton, hfirst]
    · rw [String.intercalate_cons_of_ne_nil hne, ofText_append hending, hfirst, ih hes,
        List.singleton_append]

end

/-- **A list of addresses is read line by line, and what it holds is in normal form.** It may be cut
at any line ending, and one more at its end makes no difference; one line holds at most one
address, which stands between its blanks. What a text holds, written one address a line, is read
again; the lists of which this is true are just the lists of addresses. -/
theorem ofText_line_by_line {ending : String} (hending : ending = "\n" ∨ ending = "\r\n") :
    (∀ a b, ofText (a ++ ending ++ b) = ofText a ++ ofText b) ∧
    (∀ text, ofText (text ++ ending) = ofText text) ∧
    (∀ line : String, '\n' ∉ line.toList → (ofText line).length ≤ 1 ∧
      ∀ e, e ∈ ofText line ↔ IsAddress e.toList ∧ IsPadded e.toList line.toList) ∧
    (∀ text, ∀ e ∈ ofText text, IsAddress e.toList) ∧
    (∀ text, ofText (ending.intercalate (ofText text)) = ofText text) ∧
    ∀ es, ofText (ending.intercalate es) = es ↔ ∀ e ∈ es, IsAddress e.toList := by
  have haddress (text e : String) (he : e ∈ ofText text) : IsAddress e.toList :=
    isAddress_of_mem (mem_ofText.1 he)
  refine ⟨ofText_append hending, fun text => ?_, fun line hline => ⟨?_, fun e => ?_⟩, haddress,
    fun text => ofText_intercalate hending (haddress text),
    fun es => ⟨fun h e he => haddress (ending.intercalate es) e (h.symm ▸ he),
      ofText_intercalate hending⟩⟩
  · have hlast := ofText_append hending text ""
    rwa [String.append_empty, show ofText "" = [] from rfl, List.append_nil] at hlast
  · rw [ofText, List.length_map, entries_of_notMem hline]
    exact List.length_filter_le _ _
  · rw [mem_ofText, mem_entries_of_notMem hline]

/-- A line between blanks, with a carriage return inside. -/
def lineSample : String := "\u3000http://a.com/\rx \r"

/-- A list with a comment, an empty line, both line endings, and none at its end. -/
def sample : String := "  # exported\r\n" ++ lineSample ++ "\n\n\thttp://b.com/feed"

theorem ofText_line_by_line_sample :
    ofText sample = ["http://a.com/\rx", "http://b.com/feed"] ∧
    ofText (sample ++ "\r\n" ++ sample) = ofText sample ++ ofText sample ∧
    ofText (sample ++ "\r\n") = ofText sample ∧
    ('\n' ∉ lineSample.toList ∧ IsAddress "http://a.com/\rx".toList ∧
      IsPadded "http://a.com/\rx".toList lineSample.toList) ∧
    ofText ("\r\n".intercalate (ofText sample)) = ofText sample := by
  have hending : "\r\n" = "\n" ∨ "\r\n" = "\r\n" := .inr rfl
  obtain ⟨happend, hlast, hline, -, hnormal, -⟩ := ofText_line_by_line hending
  have hsplit : '\n' ∉ lineSample.toList := by decide +kernel
  have hmem : "http://a.com/\rx" ∈ ofText lineSample := by decide +kernel
  exact ⟨by decide +kernel, happend sample sample, hlast sample,
    ⟨hsplit, ((hline lineSample hsplit).2 "http://a.com/\rx").1 hmem⟩, hnormal sample⟩

end Addresses

end Syndication
