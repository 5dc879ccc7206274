import PlaybookLint.Proofs.Scanning

/-!
# Where quoted scalars end

The end of a quoted scalar is looked for in the source, from its opening quote on. What is found is
the quote that closes the scalar, whatever stands in it: quotes that are written twice or behind a
backslash, backslashes, signs of comments and line breaks. So the ranges of scalars that stand
beside each other share no character, which is what the search for comments relies on.

## Main definitions

* `Text.Escaped`, `Text.doubled` - what stands between double quotes and between single quotes.
* `Yaml.Quote.Writes` - how a scalar between quotes is written.
* `QuotedScalar` - a scalar that stands in a source, and the event that reports it.

## Main statements

* `quotedLength_append` - the search passes what is written and stops behind the closing quote.
* `QuotedScalar.quotedAt?_eq` - the range of a scalar is where it stands.
* `QuotedScalar.quoted_foldl_cover` - the ranges that a list of scalars leaves in the mask.
* `quoted_ranges_exact` - the ranges are exact, and those of different scalars are apart.
-/

namespace PlaybookLint

open Yaml (Event Quote ScalarStyle)

/-! ### Between quotes -/

namespace Text

/-- A text does not close the double quotes that it stands between: every quote in it has a
backslash before it that escapes it. -/
inductive Escaped : List Char → Prop
  | nil : Escaped []
  | plain {c : Char} {cs : List Char} (ne_quote : c ≠ '"') (ne_backslash : c ≠ '\\')
      (later : Escaped cs) : Escaped (c :: cs)
  | pair (c : Char) {cs : List Char} (later : Escaped cs) : Escaped ('\\' :: c :: cs)

/-- A text with each single quote written twice. -/
def doubled (cs : List Char) : List Char :=
  cs.flatMap fun c => if c = '\'' then [c, c] else [c]

end Text

namespace Yaml.Quote

/-- The style of the scalars between quotes of a kind. -/
def style : Quote → ScalarStyle
  | .single => .singleQuoted
  | .double => .doubleQuoted

/-- A scalar between quotes as it is written, both quotes included. -/
inductive Writes : Quote → List Char → Prop
  | single (content : List Char) : Writes .single ('\'' :: (Text.doubled content ++ ['\'']))
  | double {body : List Char} (escaped : Text.Escaped body) :
      Writes .double ('"' :: (body ++ ['"']))

/-- A text behind a closing quote does not continue the scalar, as a second single quote would. -/
def IsClosedBefore (quote : Quote) (after : List Char) : Prop :=
  quote = .single → after.head? ≠ some '\''

end Yaml.Quote

/-! ### The search for the closing quote -/

section Search

variable {quote : Quote}

/-- A character that is no quote and escapes nothing is passed alone. -/
theorem quotedLength_cons {c : Char} (hquote : c ≠ quote.char)
    (hescape : quote = .double → c ≠ '\\') (cs : List Char) :
    quotedLength quote (c :: cs) = 1 + quotedLength quote cs := by
  cases cs with
  | nil => rfl
  | cons d cs => cases quote <;> simp_all [quotedLength, Quote.char]

/-- The search stops behind a quote that nothing continues. -/
theorem quotedLength_close {after : List Char} (h : quote.IsClosedBefore after) :
    quotedLength quote (quote.char :: after) = 1 := by
  cases after with
  | nil => rfl
  | cons d after => cases quote <;> simp_all [quotedLength, Quote.char, Quote.IsClosedBefore]

/-- What is escaped is passed together with its backslash. -/
theorem quotedLength_pair (c : Char) (cs : List Char) :
    quotedLength .double ('\\' :: c :: cs) = 2 + quotedLength .double cs := by
  simp [quotedLength]

/-- A quote that is written twice is passed at once. -/
theorem quotedLength_twice (cs : List Char) :
    quotedLength .single ('\'' :: '\'' :: cs) = 2 + quotedLength .single cs := by
  simp [quotedLength]

theorem quotedLength_escaped {body : List Char} (h : Text.Escaped body) (after : List Char) :
    quotedLength .double (body ++ '"' :: after) = body.length + 1 := by
  induction h with
  | nil => exact @quotedLength_close .double after nofun
  | plain hquote hescape _ ih =>
      rw [List.cons_append, quotedLength_cons hquote fun _ => hescape, ih, List.length_cons]
      omega
  | pair c _ ih =>
      rw [List.cons_append, List.cons_append, quotedLength_pair, ih, List.length_cons,
        List.length_cons]
      omega

theorem quotedLength_doubled (content : List Char) {after : List Char}
    (h : after.head? ≠ some '\'') :
    quotedLength .single (Text.doubled content ++ '\'' :: after) =
      (Text.doubled content).length + 1 := by
  induction content with
  | nil => exact @quotedLength_close .single after fun _ => h
  | cons c content ih =>
      by_cases hc : c = '\''
      · have hcons : Text.doubled (c :: content) = '\'' :: '\'' :: Text.doubled content := by
          simp [Text.doubled, hc]
        rw [hcons, List.cons_append, List.cons_append, quotedLength_twice, ih, List.length_cons,
          List.length_cons]
        omega
      · have hcons : Text.doubled (c :: content) = c :: Text.doubled content := by
          simp [Text.doubled, hc]
        have hplain : Quote.single = .double → c ≠ '\\' := fun h => nomatch h
        rw [hcons, List.cons_append, quotedLength_cons hc hplain, ih, List.length_cons]
        omega

/-- **The search for the closing quote** passes what is written and stops behind that quote. -/
theorem quotedLength_append {text after : List Char} (htext : quote.Writes text)
    (hafter : quote.IsClosedBefore after) :
    text.head? = some quote.char ∧ 1 + quotedLength quote (text.tail ++ after) = text.length := by
  cases htext with
  | single content =>
      refine ⟨rfl, ?_⟩
      rw [List.tail_cons, List.append_assoc, List.singleton_append,
        quotedLength_doubled content (hafter rfl)]
      simp
      omega
  | double hbody =>
      refine ⟨rfl, ?_⟩
      rw [List.tail_cons, List.append_assoc, List.singleton_append, quotedLength_escaped hbody]
      simp
      omega

end Search

/-! ### Scalars in a source -/

/-- A quoted scalar that stands in a source, and the event that reports it at its opening quote. -/
structure QuotedScalar (source : List Char) where
  event : Event
  quote : Quote
  /-- The source before the scalar. -/
  before : List Char
  /-- The scalar, both quotes included. -/
  text : List Char
  after : List Char
  source_eq : source = before ++ (text ++ after)
  writes : quote.Writes text
  closed : quote.IsClosedBefore after
  kind : ∃ value anchor, event.kind = .scalar value quote.style anchor
  mark : event.mark.index = before.length

namespace QuotedScalar

variable {source : List Char}

/-- The characters of the scalar, both quotes included. -/
def range (s : QuotedScalar source) : CharRange :=
  ⟨s.before.length, s.before.length + s.text.length⟩

/-- One of two scalars stands before the other one. -/
def IsBeside (a b : QuotedScalar source) : Prop :=
  a.range.stop ≤ b.range.start ∨ b.range.stop ≤ a.range.start

theorem apart_of_isBeside {a b : QuotedScalar source} (h : a.IsBeside b) :
    a.range.Apart b.range := by
  rcases h with h | h
  · exact CharRange.apart_of_stop_le h
  · exact (CharRange.apart_of_stop_le h).symm

/-- There is an opening quote in the range. -/
theorem start_lt_stop (s : QuotedScalar source) : s.range.start < s.range.stop := by
  have hlength := (quotedLength_append s.writes s.closed).2
  simp only [range]
  omega

/-- The source behind the opening quote of the scalar. -/
theorem drop_source (s : QuotedScalar source) :
    source.drop (s.before.length + 1) = s.text.tail ++ s.after := by
  have hfirst := (quotedLength_append s.writes s.closed).1
  have hdrop := congrArg (List.drop (s.before.length + 1)) s.source_eq
  rw [hdrop, List.drop_length_add_append]
  cases htext : s.text with
  | nil => simp [htext] at hfirst
  | cons c cs => rfl

/-- **The range of a scalar is where it stands.** -/
theorem quotedAt?_eq (s : QuotedScalar source) :
    Mask.quotedAt? source s.event = some s.range := by
  obtain ⟨hfirst, hlength⟩ := quotedLength_append s.writes s.closed
  have hopening : openingQuote? s.quote source s.event.mark.index = some s.before.length := by
    have hat : source[s.before.length]? = some s.quote.char := by
      have hbehind := congrArg (fun cs => cs[s.before.length]?) s.source_eq
      rw [hbehind, List.getElem?_append_right (Nat.le_refl _), Nat.sub_self,
        ← List.head?_eq_getElem?, List.head?_append, hfirst, Option.some_or]
    rw [openingQuote?, s.mark, if_pos hat]
  have hrange : quotedRange s.quote source s.before.length = s.range := by
    rw [quotedRange, s.drop_source, range, ← hlength, Nat.add_assoc]
  obtain ⟨value, anchor, hkind⟩ := s.kind
  rw [← hrange, Mask.quotedAt?, hkind]
  cases hquote : s.quote <;> simp [Quote.style, ← hquote, hopening]

/-- The ranges that a list of scalars leaves in the mask, latest first. -/
theorem quoted_foldl_cover (lines : List Line) (scalars : List (QuotedScalar source))
    (mask : Mask) :
    (scalars.foldl (fun mask s => mask.cover source lines s.event) mask).quoted =
      (scalars.map range).reverse ++ mask.quoted := by
  induction scalars generalizing mask with
  | nil => rfl
  | cons s scalars ih =>
      rw [List.foldl_cons, ih, Mask.cover, quotedAt?_eq, List.map_cons, List.reverse_cons,
        List.append_assoc]
      rfl

end QuotedScalar

/-- **The range of a quoted scalar ends with its closing quote.**  It is found to be the characters
of the scalar, both quotes included, so that the ranges of two scalars of which one stands before
the other share no character. After all scalars of a text have been read, these are the ranges that
are masked; none is empty, and no two of them share a character. -/
theorem quoted_ranges_exact (source : List Char) (lines : List Line) :
    (∀ s : QuotedScalar source, Mask.quotedAt? source s.event =
      some ⟨s.before.length, s.before.length + s.text.length⟩) ∧
    (∀ a b : QuotedScalar source, a.IsBeside b → a.range.Apart b.range) ∧
    ∀ scalars : List (QuotedScalar source), scalars.Pairwise QuotedScalar.IsBeside →
      let mask := scalars.foldl (fun mask s => mask.cover source lines s.event) Mask.empty
      mask.quoted = (scalars.map QuotedScalar.range).reverse ∧
        (∀ r ∈ mask.quoted, r.start < r.stop) ∧ mask.quoted.Pairwise CharRange.Apart := by
  refine ⟨QuotedScalar.quotedAt?_eq, fun a b => QuotedScalar.apart_of_isBeside,
    fun scalars hbeside => ?_⟩
  intro mask
  have hquoted : mask.quoted = (scalars.map QuotedScalar.range).reverse :=
    (QuotedScalar.quoted_foldl_cover lines scalars .empty).trans (List.append_nil _)
  refine ⟨hquoted, fun r hr => ?_, ?_⟩
  · rw [hquoted, List.mem_reverse] at hr
    obtain ⟨s, -, rfl⟩ := List.mem_map.mp hr
    exact s.start_lt_stop
  · rw [hquoted, List.pairwise_reverse, List.pairwise_map]
    exact hbeside.imp fun h => (QuotedScalar.apart_of_isBeside h).symm

/-- The theorem applies to a scalar of two lines with a quote in it that is written twice, and one
that ends with an escaped backslash. Signs of comments stand in both and behind both. -/
theorem quoted_ranges_exact_two :
    let source := "- 'it''s # a\n  # b' # c\n- \"\\\" # \\\\\" # d".toList
    ∃ a b : QuotedScalar source, a.IsBeside b ∧
      Mask.quotedAt? source a.event = some ⟨2, 19⟩ ∧
      Mask.quotedAt? source b.event = some ⟨26, 35⟩ ∧ a.range.Apart b.range := by
  intro source
  let a : QuotedScalar source :=
    { event := ⟨.scalar "it's # a # b" .singleQuoted 0, ⟨2, 1, 2⟩⟩
      quote := .single
      before := "- ".toList
      text := "'it''s # a\n  # b'".toList
      after := " # c\n- \"\\\" # \\\\\" # d".toList
      source_eq := by decide
      writes := .single "it's # a\n  # b".toList
      closed := fun _ => by decide
      kind := ⟨_, _, rfl⟩
      mark := rfl }
  let b : QuotedScalar source :=
    { event := ⟨.scalar "\" # \\" .doubleQuoted 0, ⟨26, 3, 2⟩⟩
      quote := .double
      before := "- 'it''s # a\n  # b' # c\n- ".toList
      text := "\"\\\" # \\\\\"".toList
      after := " # d".toList
      source_eq := by decide
      writes := @Quote.Writes.double "\\\" # \\\\".toList
        (.pair '"' (.plain (by decide) (by decide) (.plain (by decide) (by decide)
          (.plain (by decide) (by decide) (.pair '\\' .nil)))))
      closed := nofun
      kind := ⟨_, _, rfl⟩
      mark := rfl }
  obtain ⟨hat, hapart, -⟩ := quoted_ranges_exact source []
  have hbeside : a.IsBeside b := .inl (by decide)
  exact ⟨a, b, hbeside, (hat a).trans (by decide), (hat b).trans (by decide), hapart a b hbeside⟩

end PlaybookLint
