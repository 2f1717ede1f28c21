import Syndication.Json.Reader
import Syndication.Json.Writer
import Syndication.Proofs.Text.Decimal
/-!
# Compact texts read back

A value that is made of words, whole numbers, texts, arrays and objects (`Json.IsExact`) is what its
compact text stands for: `Json.parse?_toCompact`. The text is cut into the tokens of the value
(`Json.tokens`, `Json.lexes_compact`), and they drive the reader to the value
(`Json.valueFrom?_tokens`).
-/

namespace Syndication.Json

/-! ## Values that texts determine -/

mutual

/-- Every number in a value is a whole one, and every string names a text. -/
def IsExact : Json → Prop
  | .real _ => False
  | .str text => text.isSome
  | .arr items => AreExact items
  | .obj members => MembersExact members
  | _ => True

/-- All items are exact. -/
def AreExact : List Json → Prop
  | [] => True
  | item :: items => IsExact item ∧ AreExact items

/-- All names and values are exact. -/
def MembersExact : List (Option String × Json) → Prop
  | [] => True
  | (name, value) :: members => name.isSome ∧ IsExact value ∧ MembersExact members

end

/-! ## Tokens of a value -/

mutual

/-- The tokens of a value. -/
def tokens : Json → List Token
  | .arr [] => [.beginArray, .endArray]
  | .arr (item :: items) => .beginArray :: (tokens item ++ (itemTokens items ++ [.endArray]))
  | .obj [] => [.beginObject, .endObject]
  | .obj (member :: members) =>
    .beginObject :: (memberTokens member ++ (memberTokensAfter members ++ [.endObject]))
  | value => [.scalar value]

/-- The tokens of items after the first, with the commas before them. -/
def itemTokens : List Json → List Token
  | [] => []
  | item :: items => .comma :: (tokens item ++ itemTokens items)

/-- The tokens of a name and its value. -/
def memberTokens : Option String × Json → List Token
  | (name, value) => .scalar (.str name) :: .colon :: tokens value

/-- The tokens of members after the first, with the commas before them. -/
def memberTokensAfter : List (Option String × Json) → List Token
  | [] => []
  | member :: members => .comma :: (memberTokens member ++ memberTokensAfter members)

end

/-! ## Runs that end -/

/-- Words and numbers end here. -/
def Ends (rest : List Char) : Prop := ∀ c ∈ rest.head?, c.isAlpha = false ∧ isNumeric c = false

theorem ends_nil : Ends [] := by simp [Ends]

theorem ends_cons {c : Char} (h : c ∈ [',', ']', '\x7d']) (rest : List Char) :
    Ends (c :: rest) := by
  intro d hd
  obtain rfl : c = d := by simpa using hd
  simp only [List.mem_cons, List.not_mem_nil, or_false] at h
  rcases h with rfl | rfl | rfl <;> exact ⟨by decide, by decide⟩

/-- A word ends where no letter follows. -/
theorem tokensFrom?_word (run : List Char) {value : Json}
    (hvalue : wordValue? run.reverse = some value) (found : List Token) {rest : List Char}
    (hrest : Ends rest) :
    tokensFrom? found (.word run) rest = tokensFrom? (.scalar value :: found) .between rest := by
  cases rest with
  | nil => simp [tokensFrom?, finish?, hvalue]
  | cons c rest => simp [tokensFrom?, step?, (hrest c rfl).1, hvalue]

/-- A number ends where none of its characters follows. -/
theorem tokensFrom?_number {run : List Char} {value : Json}
    (hvalue : numberValue? run.reverse = some value) (found : List Token) {rest : List Char}
    (hrest : Ends rest) :
    tokensFrom? found (.number run) rest = tokensFrom? (.scalar value :: found) .between rest := by
  cases rest with
  | nil => simp [tokensFrom?, finish?, hvalue]
  | cons c rest => simp [tokensFrom?, step?, (hrest c rfl).2, hvalue]

/-! ## Numbers -/

theorem tokensFrom?_digits {digits : List Char} (h : ∀ c ∈ digits, c.isDigit = true)
    (found : List Token) (run rest : List Char) :
    tokensFrom? found (.number run) (digits ++ rest) =
      tokensFrom? found (.number (digits.reverse ++ run)) rest := by
  induction digits generalizing run with
  | nil => rfl
  | cons c digits ih =>
    have hc : isNumeric c = true := by simp [isNumeric, h c List.mem_cons_self]
    have hstep : step? found (.number run) c = some (found, .number (c :: run)) := by
      simp [step?, hc]
    rw [List.cons_append, tokensFrom?, hstep]
    simp only
    rw [ih (fun d hd => h d (List.mem_cons_of_mem c hd)), List.reverse_cons, List.append_assoc,
      List.singleton_append]

theorem begin?_of_isDigit {c : Char} (h : c.isDigit = true) (found : List Token) :
    begin? found c = some (found, .number [c]) := by
  have other (d : Char) (hd : d.isDigit = false) : c ≠ d := by
    rintro rfl
    rw [h] at hd
    cases hd
  simp [begin?, isSpace, h, other ' ' rfl, other '\t' rfl, other '\n' rfl, other '\r' rfl,
    other '[' rfl, other ']' rfl, other '\x7b' rfl, other '\x7d' rfl, other ',' rfl, other ':' rfl,
    other '"' rfl]

theorem magnitude?_ofNat (negative : Bool) (n : Nat) : magnitude? negative (Decimal.ofNat n) =
    if negative then
      some (if n ≠ 0 then .int (-n) else .real ('-' :: Decimal.ofNat n))
    else some (.int n) := by
  have hdigits : ∀ c ∈ Decimal.ofNat n, c.isDigit = true := fun c => Decimal.isDigit_of_mem_ofNat
  have htake : (Decimal.ofNat n).takeWhile Char.isDigit = Decimal.ofNat n :=
    List.takeWhile_eq_self_iff.2 hdigits
  have hdrop : (Decimal.ofNat n).dropWhile Char.isDigit = [] :=
    List.dropWhile_eq_nil_iff.2 hdigits
  have hwhole : isWhole (Decimal.ofNat n) = true := by
    obtain ⟨c, digits, heq, hzero⟩ := Decimal.ofNat_eq_cons n
    rw [heq] at hdigits ⊢
    by_cases hc : c = '0'
    · simp [isWhole, isDigits, hc, hzero hc]
    · have hall : (c :: digits).all Char.isDigit = true := List.all_eq_true.2 hdigits
      simp only [isWhole, isDigits, hall]
      simp [hc]
  simp [magnitude?, htake, hdrop, hwhole, isFractionPart, isExponentPart, Decimal.toNat_ofNat]

theorem numberValue?_ofInt (n : Int) : numberValue? (Decimal.ofInt n) = some (.int n) := by
  cases n with
  | ofNat n =>
    obtain ⟨c, digits, heq, -⟩ := Decimal.ofNat_eq_cons n
    have hsign : c ≠ '-' := by
      rintro rfl
      have := Decimal.isDigit_of_mem_ofNat (n := n) (heq ▸ List.mem_cons_self)
      cases this
    have hvalue := magnitude?_ofNat false n
    rw [Decimal.ofInt, heq] at *
    unfold numberValue?
    split
    · next h => exact absurd (List.cons.inj h).1 hsign
    · simpa using hvalue
  | negSucc n =>
    change magnitude? true (Decimal.ofNat (n + 1)) = _
    rw [magnitude?_ofNat]
    simp [Int.negSucc_eq]

theorem tokensFrom?_int (n : Int) (found : List Token) {rest : List Char} (hrest : Ends rest) :
    tokensFrom? found .between (Decimal.ofInt n ++ rest) =
      tokensFrom? (.scalar (.int n) :: found) .between rest := by
  have hrun : tokensFrom? found .between (Decimal.ofInt n ++ rest) =
      tokensFrom? found (.number (Decimal.ofInt n).reverse) rest := by
    cases n with
    | ofNat n =>
      obtain ⟨c, digits, heq, -⟩ := Decimal.ofNat_eq_cons n
      have hdigits : ∀ d ∈ c :: digits, d.isDigit = true := fun d hd =>
        Decimal.isDigit_of_mem_ofNat (heq ▸ hd)
      rw [Decimal.ofInt, heq, List.cons_append, tokensFrom?, step?,
        begin?_of_isDigit (hdigits c List.mem_cons_self)]
      simp only
      rw [tokensFrom?_digits (fun d hd => hdigits d (List.mem_cons_of_mem c hd)), List.reverse_cons]
    | negSucc n =>
      change tokensFrom? found (.number ['-']) (Decimal.ofNat (n + 1) ++ rest) = _
      rw [tokensFrom?_digits fun c => Decimal.isDigit_of_mem_ofNat]
      simp [Decimal.ofInt]
  rw [hrun, tokensFrom?_number (by rw [List.reverse_reverse, numberValue?_ofInt]) found hrest]

/-! ## Strings -/

theorem hexValue?_hexDigit {n : Nat} (h : n < 16) : hexValue? (hexDigit n) = some n := by
  have all : ∀ n < 16, hexValue? (hexDigit n) = some n := by decide
  exact all n h

theorem toNat_lt_of_control {c : Char} (h : c < ' ') : c.toNat < 32 := UInt32.lt_iff_toNat_lt.1 h

/-- Two hexadecimal digits after two zeros are a control. -/
theorem tokensFrom?_control {c : Char} (h : c < ' ') (found : List Token) (pieces : List Piece)
    (rest : List Char) :
    tokensFrom? found (.string pieces) ('\\' :: 'u' :: '0' :: '0' :: hexDigit (c.toNat / 16) ::
      hexDigit (c.toNat % 16) :: rest) = tokensFrom? found (.string (.char c :: pieces)) rest := by
  have hlt := toNat_lt_of_control h
  have hhigh := hexValue?_hexDigit (n := c.toNat / 16) (by omega)
  have hlow := hexValue?_hexDigit (n := c.toNat % 16) (by omega)
  have hcode : Piece.ofCode (16 * (c.toNat / 16) + c.toNat % 16) = .char c := by
    rw [Nat.div_add_mod, Piece.ofCode, if_neg (by omega), Char.ofNat_toNat]
  change tokensFrom? found (.unicode pieces 2 0) _ = _
  simp [tokensFrom?, step?, hhigh, hlow, hcode]

/-- A character of a string is read as itself, however it is escaped. -/
theorem tokensFrom?_escaped (c : Char) (found : List Token) (pieces : List Piece)
    (rest : List Char) :
    tokensFrom? found (.string pieces) (escaped c ++ rest) =
      tokensFrom? found (.string (.char c :: pieces)) rest := by
  unfold escaped
  split
  · next h =>
    subst h
    rfl
  · next hquote =>
    split
    · next h =>
      subst h
      rfl
    · next hbackslash =>
      -- the five short escapes
      iterate 5
        split
        · next h =>
          subst h
          rfl
      split
      · next h => exact tokensFrom?_control h found pieces rest
      · next h => simp [tokensFrom?, step?, hquote, hbackslash, h]

theorem tokensFrom?_string (s : List Char) (found : List Token) (pieces : List Piece)
    (rest : List Char) :
    tokensFrom? found (.string pieces) (s.flatMap escaped ++ rest) =
      tokensFrom? found (.string ((s.map Piece.char).reverse ++ pieces)) rest := by
  induction s generalizing pieces with
  | nil => rfl
  | cons c s ih =>
    rw [List.flatMap_cons, List.append_assoc, tokensFrom?_escaped, ih]
    simp

theorem joinPieces?_chars (s : List Char) : joinPieces? (s.map .char) = some s := by
  induction s with
  | nil => rfl
  | cons c s ih => simp [joinPieces?, ih]

theorem tokensFrom?_quotedText (s : String) (found : List Token) (rest : List Char) :
    tokensFrom? found .between (quotedText (some s) ++ rest) =
      tokensFrom? (.scalar (.str (some s)) :: found) .between rest := by
  have hopen : tokensFrom? found .between (quotedText (some s) ++ rest) =
      tokensFrom? found (.string []) (s.toList.flatMap escaped ++ ('"' :: rest)) := by
    rw [quotedText, List.cons_append, List.append_assoc]
    rfl
  rw [hopen, tokensFrom?_string, List.append_nil, tokensFrom?]
  simp [step?, stringOf, joinPieces?_chars]

/-! ## The text is cut into the tokens -/

/-- What follows an item of an array. -/
theorem ends_compactItems (items : List Json) (rest : List Char) :
    Ends (compactItems items ++ ']' :: rest) := by
  cases items with
  | nil => exact ends_cons (by simp) rest
  | cons item items => exact ends_cons (by simp) _

/-- What follows a member of an object. -/
theorem ends_compactMembers (members : List (Option String × Json)) (rest : List Char) :
    Ends (compactMembers members ++ '\x7d' :: rest) := by
  cases members with
  | nil => exact ends_cons (by simp) rest
  | cons member members => exact ends_cons (by simp) _

mutual

/-- **A compact text is cut into the tokens of the value.** -/
theorem lexes_compact : (value : Json) → value.IsExact → (found : List Token) →
    (rest : List Char) → Ends rest → tokensFrom? found .between (compact value ++ rest) =
      tokensFrom? ((tokens value).reverse ++ found) .between rest
  | .null, _, found, _, hrest => tokensFrom?_word ['l', 'l', 'u', 'n'] rfl found hrest
  | .bool true, _, found, _, hrest => tokensFrom?_word ['e', 'u', 'r', 't'] rfl found hrest
  | .bool false, _, found, _, hrest => tokensFrom?_word ['e', 's', 'l', 'a', 'f'] rfl found hrest
  | .int n, _, found, _, hrest => tokensFrom?_int n found hrest
  | .real _, h, _, _, _ => h.elim
  | .str none, h, _, _, _ => by cases h
  | .str (some s), _, found, rest, _ => tokensFrom?_quotedText s found rest
  | .arr [], _, _, _, _ => rfl
  | .arr (item :: items), h, found, rest, _ => by
    have hitem := lexes_compact item h.1 (.beginArray :: found)
      (compactItems items ++ ']' :: rest) (ends_compactItems items rest)
    have hitems := lexes_items items h.2 ((tokens item).reverse ++ .beginArray :: found) rest
    rw [compact, tokens, List.cons_append, List.append_assoc, List.append_assoc,
      List.singleton_append]
    change tokensFrom? (.beginArray :: found) .between _ = _
    rw [hitem, hitems]
    simp
  | .obj [], _, _, _, _ => rfl
  | .obj ((name, value) :: members), h, found, rest, _ => by
    have hmember := lexes_member name value h.1 h.2.1 (.beginObject :: found)
      (compactMembers members ++ '\x7d' :: rest) (ends_compactMembers members rest)
    have hmembers := lexes_members members h.2.2
      ((memberTokens (name, value)).reverse ++ .beginObject :: found) rest
    rw [compact, tokens, List.cons_append, List.append_assoc, List.append_assoc,
      List.singleton_append]
    change tokensFrom? (.beginObject :: found) .between _ = _
    rw [hmember, hmembers]
    simp

theorem lexes_items : (items : List Json) → AreExact items → (found : List Token) →
    (rest : List Char) → tokensFrom? found .between (compactItems items ++ ']' :: rest) =
      tokensFrom? (.endArray :: ((itemTokens items).reverse ++ found)) .between rest
  | [], _, _, _ => rfl
  | item :: items, h, found, rest => by
    have hitem := lexes_compact item h.1 (.comma :: found)
      (compactItems items ++ ']' :: rest) (ends_compactItems items rest)
    have hitems := lexes_items items h.2 ((tokens item).reverse ++ .comma :: found) rest
    rw [compactItems, itemTokens, List.cons_append, List.append_assoc]
    change tokensFrom? (.comma :: found) .between _ = _
    rw [hitem, hitems]
    simp

theorem lexes_member : (name : Option String) → (value : Json) → name.isSome →
    value.IsExact → (found : List Token) → (rest : List Char) → Ends rest →
    tokensFrom? found .between (compactMember (name, value) ++ rest) =
      tokensFrom? ((memberTokens (name, value)).reverse ++ found) .between rest
  | none, _, h, _, _, _, _ => by cases h
  | some name, value, _, h, found, rest, hrest => by
    have hvalue := lexes_compact value h (.colon :: .scalar (.str (some name)) :: found) rest hrest
    rw [compactMember, memberTokens, List.append_assoc, List.cons_append, tokensFrom?_quotedText]
    change tokensFrom? (.colon :: .scalar (.str (some name)) :: found) .between _ = _
    rw [hvalue]
    simp

theorem lexes_members : (members : List (Option String × Json)) → MembersExact members →
    (found : List Token) → (rest : List Char) →
    tokensFrom? found .between (compactMembers members ++ '\x7d' :: rest) =
      tokensFrom? (.endObject :: ((memberTokensAfter members).reverse ++ found)) .between rest
  | [], _, _, _ => rfl
  | (name, value) :: members, h, found, rest => by
    have hmember := lexes_member name value h.1 h.2.1 (.comma :: found)
      (compactMembers members ++ '\x7d' :: rest) (ends_compactMembers members rest)
    have hmembers := lexes_members members h.2.2
      ((memberTokens (name, value)).reverse ++ .comma :: found) rest
    rw [compactMembers, memberTokensAfter, List.cons_append, List.append_assoc]
    change tokensFrom? (.comma :: found) .between _ = _
    rw [hmember, hmembers]
    simp

end

/-! ## The tokens drive the reader to the value -/

/-- A value does not begin with the end of an array. -/
theorem valueFrom?_firstItem (value : Json) (stack : List Frame) (rest : List Token) :
    valueFrom? stack .firstItem (tokens value ++ rest) =
      valueFrom? (.items [] :: stack) .value (tokens value ++ rest) := by
  cases value with
  | arr items => cases items <;> rfl
  | obj members => cases members <;> rfl
  | _ => rfl

mutual

/-- **The tokens of a value complete it**, wherever it stands. -/
theorem valueFrom?_tokens : (value : Json) → (stack : List Frame) → (rest : List Token) →
    valueFrom? stack .value (tokens value ++ rest) = valueFrom? stack (.after value) rest
  | .null, _, _ => rfl
  | .bool _, _, _ => rfl
  | .int _, _, _ => rfl
  | .real _, _, _ => rfl
  | .str _, _, _ => rfl
  | .arr [], _, _ => rfl
  | .arr (item :: items), stack, rest => by
    rw [tokens, List.cons_append, List.append_assoc, List.append_assoc, List.singleton_append]
    change valueFrom? stack .firstItem _ = _
    rw [valueFrom?_firstItem, valueFrom?_tokens item, valueFrom?_items items]
    rfl
  | .obj [], _, _ => rfl
  | .obj ((name, value) :: members), stack, rest => by
    simp only [tokens, memberTokens, List.cons_append, List.append_assoc, List.nil_append]
    change valueFrom? (.members [] name :: stack) .value _ = _
    rw [valueFrom?_tokens value, valueFrom?_members members]
    rfl

theorem valueFrom?_items : (items : List Json) → (before : List Json) → (value : Json) →
    (stack : List Frame) → (rest : List Token) →
    valueFrom? (.items before :: stack) (.after value) (itemTokens items ++ .endArray :: rest) =
      valueFrom? stack (.after (.arr (before.reverse ++ value :: items))) rest
  | [], before, value, stack, rest => by
    change valueFrom? stack (.after (.arr (value :: before).reverse)) rest = _
    rw [List.reverse_cons]
  | item :: items, before, value, stack, rest => by
    rw [itemTokens, List.cons_append, List.append_assoc]
    change valueFrom? (.items (value :: before) :: stack) .value _ = _
    rw [valueFrom?_tokens item, valueFrom?_items items]
    simp

theorem valueFrom?_members : (members : List (Option String × Json)) →
    (before : List (Option String × Json)) → (name : Option String) → (value : Json) →
    (stack : List Frame) → (rest : List Token) →
    valueFrom? (.members before name :: stack) (.after value)
        (memberTokensAfter members ++ .endObject :: rest) =
      valueFrom? stack (.after (.obj (before.reverse ++ (name, value) :: members))) rest
  | [], before, name, value, stack, rest => by
    change valueFrom? stack (.after (.obj ((name, value) :: before).reverse)) rest = _
    rw [List.reverse_cons]
  | (name', value') :: members, before, name, value, stack, rest => by
    simp only [memberTokensAfter, memberTokens, List.cons_append, List.append_assoc]
    change valueFrom? (.members ((name, value) :: before) name' :: stack) .value _ = _
    rw [valueFrom?_tokens value', valueFrom?_members members]
    simp

end

/-- **Exact values read back** from their compact texts. -/
theorem parse?_toCompact {value : Json} (h : value.IsExact) :
    parse? value.toCompact = some value := by
  have hlex := lexes_compact value h [] [] ends_nil
  have hread := valueFrom?_tokens value [] []
  rw [List.append_nil, List.append_nil] at hlex
  rw [List.append_nil] at hread
  have htokens : tokens? value.compact = some (tokens value) := by
    rw [tokens?, hlex]
    simp [tokensFrom?, finish?]
  rw [parse?, toCompact, String.toList_ofList, htokens]
  exact hread

end Syndication.Json
