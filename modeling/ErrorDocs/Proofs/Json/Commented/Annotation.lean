import ErrorDocs.Proofs.Json.Commented.Lexing

/-!
# Comments and commas in a JSON text

A JSON text is annotated by inserting blanks and comments between its tokens, and a comma after
the last entry of a container. In the commented dialect the tokens of the annotated text are those
of the JSON text, but for a comma before some of the tokens that close a container.

* `IsScalar`, `Widens`, `Annotates`: the grammar of JSON, and what is inserted.
* `Loosens`: tokens with commas before the end of a container.
* `Follows`: what is left of the two texts has such tokens.
* **`loosens_of_annotates`**: the tokens of the two texts.
-/

namespace ErrorDocs.Json.Commented

/-! ## JSON, and what is inserted -/

/-- The characters that may follow a backslash, `u` apart. -/
def escapes : List Char := ['"', '\\', '/', 'b', 'f', 'n', 'r', 't']

/-- What JSON has between the quotes of a text. -/
inductive IsQuotedText : List Char → Prop where
  | nil : IsQuotedText []
  | plain {c : Char} {s : List Char} (hquote : c ≠ '"') (hslash : c ≠ '\\')
      (hcontrol : 0x20 ≤ c.toNat) (h : IsQuotedText s) : IsQuotedText (c :: s)
  | escape {c : Char} {s : List Char} (hc : c ∈ escapes) (h : IsQuotedText s) :
      IsQuotedText ('\\' :: c :: s)
  | code {digits s : List Char} (hlength : digits.length = 4)
      (hdigits : ∀ c ∈ digits, (Number.hexValue? c).isSome) (h : IsQuotedText s) :
      IsQuotedText ('\\' :: 'u' :: (digits ++ s))

/-- A text in quotes. -/
def IsQuoted (s : List Char) : Prop :=
  ∃ text, IsQuotedText text ∧ s = '"' :: (text ++ ['"'])

/-- A text that has nothing to be escaped. -/
theorem isQuoted_of_plain (s : List Char)
    (h : ∀ c ∈ s, c ≠ '"' ∧ c ≠ '\\' ∧ 0x20 ≤ c.toNat) : IsQuoted ('"' :: (s ++ ['"'])) := by
  refine ⟨s, ?_, rfl⟩
  induction s with
  | nil => exact .nil
  | cons c s ih =>
    rw [List.forall_mem_cons] at h
    exact .plain h.1.1 h.1.2.1 h.1.2.2 (ih h.2)

/-- A keyword of JSON. -/
def IsKeyword (s : List Char) : Prop :=
  s ∈ [['t', 'r', 'u', 'e'], ['f', 'a', 'l', 's', 'e'], ['n', 'u', 'l', 'l']]

/-- The values of JSON that are one token. -/
inductive IsScalar : List Char → Prop where
  | quoted {s : List Char} (h : IsQuoted s) : IsScalar s
  | number {s : List Char} (h : IsNumber s) : IsScalar s
  | keyword {s : List Char} (h : IsKeyword s) : IsScalar s

/-- The first text is blank, and blanks and comments have been inserted in the second. A comment
holds anything but its own end, and one that ends with the line no carriage return. -/
inductive Widens : List Char → List Char → Prop where
  | nil : Widens [] []
  | keep {c : Char} {w w' : List Char} (hc : isSpace c = true) (h : Widens w w') :
      Widens (c :: w) (c :: w')
  | space {c : Char} {w w' : List Char} (hc : isSpace c = true) (h : Widens w w') :
      Widens w (c :: w')
  | lineComment {text w w' : List Char} (hline : '\n' ∉ text) (hreturn : '\r' ∉ text)
      (h : Widens w w') : Widens w ('/' :: '/' :: (text ++ '\n' :: w'))
  | blockComment {text w w' : List Char} (htext : ¬ ['*', '/'] <:+: text) (h : Widens w w') :
      Widens w ('/' :: '*' :: (text ++ '*' :: '/' :: w'))

/-- What has entries: items, or members with a name. -/
inductive Container where
  | array
  | object
deriving DecidableEq, Repr

namespace Container

/-- The character that opens a container. -/
def opening : Container → Char
  | array => '['
  | object => leftBrace

/-- The character that closes a container. -/
def closing : Container → Char
  | array => ']'
  | object => rightBrace

end Container

/-- The parts of a JSON text. -/
inductive Part where
  | value
  | entry (k : Container)
  /-- All between the ends of a container that is not empty. -/
  | entries (k : Container)
  | text

/-- The first text is a part of a JSON text. The second is the first with blanks and comments
inserted between its tokens, and a comma after the last entry of some of its containers. -/
inductive Annotates : Part → List Char → List Char → Prop where
  | scalar {s : List Char} (h : IsScalar s) : Annotates .value s s
  | empty (k : Container) {w w' : List Char} (h : Widens w w') :
      Annotates .value (k.opening :: (w ++ [k.closing])) (k.opening :: (w' ++ [k.closing]))
  | container {k : Container} {s s' : List Char} (h : Annotates (.entries k) s s') :
      Annotates .value (k.opening :: (s ++ [k.closing])) (k.opening :: (s' ++ [k.closing]))
  | item {s s' : List Char} (h : Annotates .value s s') : Annotates (.entry .array) s s'
  | member {name u u' v v' s s' : List Char} (hname : IsQuoted name) (hu : Widens u u')
      (hv : Widens v v') (h : Annotates .value s s') :
      Annotates (.entry .object) (name ++ (u ++ ':' :: (v ++ s)))
        (name ++ (u' ++ ':' :: (v' ++ s')))
  | last {k : Container} {u u' s s' v v' : List Char} (hu : Widens u u')
      (h : Annotates (.entry k) s s') (hv : Widens v v') :
      Annotates (.entries k) (u ++ (s ++ v)) (u' ++ (s' ++ v'))
  | lastComma {k : Container} {u u' s s' v v' w w' : List Char} (hu : Widens u u')
      (h : Annotates (.entry k) s s') (hv : Widens v v') (hw : Widens w w') :
      Annotates (.entries k) (u ++ (s ++ (v ++ w))) (u' ++ (s' ++ (v' ++ ',' :: w')))
  | cons {k : Container} {u u' s s' v v' rest rest' : List Char} (hu : Widens u u')
      (h : Annotates (.entry k) s s') (hv : Widens v v')
      (hrest : Annotates (.entries k) rest rest') :
      Annotates (.entries k) (u ++ (s ++ (v ++ ',' :: rest))) (u' ++ (s' ++ (v' ++ ',' :: rest')))
  | text {u u' s s' v v' : List Char} (hu : Widens u u') (h : Annotates .value s s')
      (hv : Widens v v') : Annotates .text (u ++ (s ++ v)) (u' ++ (s' ++ v'))

/-! ## Tokens -/

/-- Tokens that end a container. -/
def closes : Token → Bool
  | .closeBrace => true
  | .closeBracket => true
  | _ => false

/-- Tokens that end a value or a name. -/
def endsValue : Token → Bool
  | .string _ => true
  | .number _ _ => true
  | .boolean _ => true
  | .null => true
  | t => closes t

/-- The same tokens at other places, with commas between the end of a value and the end of the
container it is in. The mark says whether a value ends right before the tokens. -/
inductive Loosens : Bool → List Located → List Located → Prop where
  | nil (after : Bool) : Loosens after [] []
  | cons (after : Bool) (p p' : Nat) {t : Token} {ts ts' : List Located}
      (h : Loosens (endsValue t) ts ts') : Loosens after (⟨p, t⟩ :: ts) (⟨p', t⟩ :: ts')
  | comma (p p' q : Nat) {t : Token} {ts ts' : List Located} (ht : closes t = true)
      (h : Loosens (endsValue t) ts ts') :
      Loosens true (⟨p, t⟩ :: ts) (⟨q, .comma⟩ :: ⟨p', t⟩ :: ts')

/-- If nothing is wrong with the first of two texts, nothing is with the second, and the tokens
that are new in the second are those that are new in the first, with commas. -/
def Agree (after : Bool) (found found' : List Located) (s s' : Scan) : Prop :=
  s.trouble = none → s'.trouble = none ∧ ∃ new new', s.tokens = found.reverse ++ new ∧
    s'.tokens = found'.reverse ++ new' ∧ Loosens after new new'

variable {after : Bool} {found found' : List Located} {p p' q : Nat} {t : Token}

/-- A token that both have found is the first of the new ones. -/
theorem Agree.cons {s s' : Scan}
    (h : Agree (endsValue t) (⟨p, t⟩ :: found) (⟨p', t⟩ :: found') s s') :
    Agree after found found' s s' := by
  intro htrouble
  obtain ⟨htrouble', new, new', hnew, hnew', hloosens⟩ := h htrouble
  refine ⟨htrouble', ⟨p, t⟩ :: new, ⟨p', t⟩ :: new', ?_, ?_, .cons after p p' hloosens⟩
  · rw [hnew, List.reverse_cons, List.append_assoc, List.singleton_append]
  · rw [hnew', List.reverse_cons, List.append_assoc, List.singleton_append]

theorem Agree.comma (ht : closes t = true) {s s' : Scan}
    (h : Agree (endsValue t) (⟨p, t⟩ :: found) (⟨p', t⟩ :: ⟨q, .comma⟩ :: found') s s') :
    Agree true found found' s s' := by
  intro htrouble
  obtain ⟨htrouble', new, new', hnew, hnew', hloosens⟩ := h htrouble
  refine ⟨htrouble', ⟨p, t⟩ :: new, ⟨q, .comma⟩ :: ⟨p', t⟩ :: new', ?_, ?_,
    .comma p p' q ht hloosens⟩
  · rw [hnew, List.reverse_cons, List.append_assoc, List.singleton_append]
  · rw [hnew', List.reverse_cons, List.reverse_cons, List.append_assoc, List.append_assoc,
      List.singleton_append, List.singleton_append]

/-- What the machine is in the middle of, but for the place where the token starts and that of the
last backslash. -/
abbrev Form := Nat → Nat → Mode

/-- Whatever has been found, what is left of two texts agrees if the machine is in the middle of
the same. -/
def Follows (form : Form) (after : Bool) (r r' : List Char) : Prop :=
  ∀ p p' start start' slash slash' found found',
    Agree after found found' (scanFrom p (form start slash) found r)
      (scanFrom p' (form start' slash') found' r')

/-- Between two tokens. -/
def Form.between : Form := fun _ _ => .between

/-- In a text in quotes. -/
def Form.quoted (text : List Char) : Form := fun start _ => .quoted ⟨start, '"', text⟩

/-- After the first unit of a pair. -/
def Form.pair (text high : List Char) : Form := fun start slash =>
  .pair ⟨start, '"', text⟩ slash high

namespace Follows

variable {form next : Form} {r r' w w' digits : List Char}

theorem nil : Follows .between after [] [] := by
  intro p p' start start' slash slash' found found' _
  exact ⟨rfl, [], [], (List.append_nil _).symm, (List.append_nil _).symm, .nil after⟩

/-- The same characters in both. -/
theorem step (hw : ∀ p start slash found rest, ∃ q start' slash',
      scanFrom p (form start slash) found (w ++ rest) = scanFrom q (next start' slash') found rest)
    (h : Follows next after r r') : Follows form after (w ++ r) (w ++ r') := by
  intro p p' start start' slash slash' found found'
  obtain ⟨q, start₁, slash₁, hstep⟩ := hw p start slash found r
  obtain ⟨q', start₁', slash₁', hstep'⟩ := hw p' start' slash' found' r'
  rw [hstep, hstep']
  exact h q q' start₁ start₁' slash₁ slash₁' found found'

/-- Nothing is asked of a text that is refused. -/
theorem fault (hw : ∀ p start slash found rest,
      (scanFrom p (form start slash) found (w ++ rest)).trouble ≠ none) :
    Follows form after (w ++ r) r' := by
  intro p p' start start' slash slash' found found' htrouble
  exact (hw p start slash found r htrouble).elim

/-- One token in both. -/
theorem token (hw : ∀ p found, ∃ q, scanFrom p .between found (w ++ r) =
      scanFrom q .between (⟨p, t⟩ :: found) r)
    (hw' : ∀ p found, ∃ q, scanFrom p .between found (w ++ r') =
      scanFrom q .between (⟨p, t⟩ :: found) r')
    (h : Follows .between (endsValue t) r r') : Follows .between after (w ++ r) (w ++ r') := by
  intro p p' start start' slash slash' found found'
  obtain ⟨q, hstep⟩ := hw p found
  obtain ⟨q', hstep'⟩ := hw' p' found'
  simp only [Form.between, hstep, hstep']
  exact (h q q' start start' slash slash' _ _).cons

theorem gap (hw : Gap w) (hw' : Gap w') (h : Follows .between after r r') :
    Follows .between after (w ++ r) (w' ++ r') := by
  intro p p' start start' slash slash' found found'
  simp only [Form.between, scanFrom_gap hw, scanFrom_gap hw']
  exact h _ _ start start' slash slash' found found'

theorem punctuation {c : Char} (hc : punctuation? c = some t)
    (h : Follows .between (endsValue t) r r') : Follows .between after (c :: r) (c :: r') := by
  have hstep (p : Nat) (found : List Located) (r : List Char) :
      ∃ q, scanFrom p .between found ([c] ++ r) = scanFrom q .between (⟨p, t⟩ :: found) r :=
    ⟨p + 1, by rw [List.singleton_append, scanFrom, lexStep, lexBetween_of_punctuation? hc]⟩
  exact token (w := [c]) (fun p found => hstep p found r) (fun p found => hstep p found r') h

theorem opening (k : Container) (h : Follows .between false r r') :
    Follows .between after (k.opening :: r) (k.opening :: r') := by
  cases k with
  | array => exact punctuation (t := .openBracket) rfl h
  | object => exact punctuation (t := .openBrace) rfl h

theorem closing (k : Container) (h : Follows .between true r r') :
    Follows .between after (k.closing :: r) (k.closing :: r') := by
  cases k with
  | array => exact punctuation (t := .closeBracket) rfl h
  | object => exact punctuation (t := .closeBrace) rfl h

/-- A comma before the end of a container. -/
theorem comma (k : Container) (hw' : Gap w') (h : Follows .between true r r') :
    Follows .between true (k.closing :: r) (',' :: (w' ++ k.closing :: r')) := by
  obtain ⟨t, hclosing, hcloses, hends⟩ :
      ∃ t, punctuation? k.closing = some t ∧ closes t = true ∧ endsValue t = true := by
    cases k <;> exact ⟨_, rfl, rfl, rfl⟩
  have hcomma : punctuation? ',' = some .comma := rfl
  intro p p' start start' slash slash' found found'
  simp only [Form.between, scanFrom, lexStep, lexBetween_of_punctuation? hclosing,
    lexBetween_of_punctuation? hcomma, scanFrom_gap hw']
  rw [← hends] at h
  exact (h _ _ start start' slash slash' _ _).comma hcloses

/-! ### Texts in quotes -/

theorem opened (h : Follows (.quoted []) after r r') :
    Follows .between after ('"' :: r) ('"' :: r') := by
  refine step (w := ['"']) (fun p start slash found rest => ⟨p + 1, p, 0, ?_⟩) h
  simp [Form.between, Form.quoted, scanFrom, lexStep, lexBetween, Text.isBlank, punctuation?]

theorem closed {text : List Char} (h : Follows .between true r r') :
    Follows (.quoted text) after ('"' :: r) ('"' :: r') := by
  intro p p' start start' slash slash' found found'
  simp only [Form.quoted, scanFrom, lexStep, if_true]
  exact Agree.cons (t := .string text.reverse) (h _ _ 0 0 0 0 _ _)

theorem escape {c : Char} (hc : c ∈ escapes) (text : List Char)
    (hquoted : ∀ text, Follows (.quoted text) after r r') :
    Follows (.quoted text) after ('\\' :: c :: r) ('\\' :: c :: r') := by
  obtain ⟨d, hd⟩ : ∃ d, escaped? c = some d := by
    have hall : escapes.all fun c => (escaped? c).isSome := by decide
    exact Option.isSome_iff_exists.mp (List.all_eq_true.mp hall c hc)
  have hne : c ≠ 'u' ∧ c ≠ '\x27' := by
    constructor <;> rintro rfl <;> exact absurd hc (by decide)
  refine step (w := ['\\', c]) (fun p start slash found rest => ⟨p + 2, start, p, ?_⟩)
    (hquoted (d :: text))
  simp [Form.quoted, scanFrom, lexStep, lexEscape, hne, hd]

/-- A numeric escape is a character, or the first unit of a pair, or refused. -/
theorem code (hlength : digits.length = 4) (hdigits : ∀ c ∈ digits, (Number.hexValue? c).isSome)
    (text : List Char) (hquoted : ∀ text, Follows (.quoted text) after r r')
    (hpair : ∀ text high, Follows (.pair text high) after r r') :
    Follows (.quoted text) after ('\\' :: 'u' :: (digits ++ r))
      ('\\' :: 'u' :: (digits ++ r')) := by
  have hopen (p start : Nat) (found : List Located) (rest : List Char) :
      scanFrom p (.quoted ⟨start, '"', text⟩) found ('\\' :: 'u' :: (digits ++ rest)) =
        scanFrom (p + 2) (.code ⟨start, '"', text⟩ p none []) found (digits ++ rest) := by
    simp [scanFrom, lexStep, lexEscape]
  by_cases hhigh : isHighSurrogate (Number.natOfHex digits) = true
  · refine step (w := '\\' :: 'u' :: digits)
      (fun p start slash found rest => ⟨p + 6, start, p, ?_⟩) (hpair text digits)
    simp [Form.quoted, Form.pair, hopen, scanFrom_digits hlength hdigits, lexCode, hhigh]
  by_cases hlow : isLowSurrogate (Number.natOfHex digits) = true
  · refine fault (w := '\\' :: 'u' :: digits) fun p start slash found rest => ?_
    simp [Form.quoted, hopen, scanFrom_digits hlength hdigits, lexCode, hhigh, hlow]
  · refine step (w := '\\' :: 'u' :: digits)
      (fun p start slash found rest => ⟨p + 6, start, p, ?_⟩)
      (hquoted (Char.ofNat (Number.natOfHex digits) :: text))
    simp [Form.quoted, hopen, scanFrom_digits hlength hdigits, lexCode, hhigh, hlow]

/-- The second unit of a pair. -/
theorem secondCode (hlength : digits.length = 4)
    (hdigits : ∀ c ∈ digits, (Number.hexValue? c).isSome) (text high : List Char)
    (hquoted : ∀ text, Follows (.quoted text) after r r') :
    Follows (.pair text high) after ('\\' :: 'u' :: (digits ++ r))
      ('\\' :: 'u' :: (digits ++ r')) := by
  have hopen (p start slash : Nat) (found : List Located) (rest : List Char) :
      scanFrom p (.pair ⟨start, '"', text⟩ slash high) found ('\\' :: 'u' :: (digits ++ rest)) =
        scanFrom (p + 2) (.code ⟨start, '"', text⟩ slash (some high) []) found
          (digits ++ rest) := by
    simp [scanFrom, lexStep]
  by_cases hlow : isLowSurrogate (Number.natOfHex digits) = true
  · refine step (w := '\\' :: 'u' :: digits)
      (fun p start slash found rest => ⟨p + 6, start, p, ?_⟩)
      (hquoted (ofSurrogates (Number.natOfHex high) (Number.natOfHex digits) :: text))
    simp [Form.quoted, Form.pair, hopen, scanFrom_digits hlength hdigits, lexCode, hlow]
  · refine fault (w := '\\' :: 'u' :: digits) fun p start slash found rest => ?_
    simp [Form.pair, hopen, scanFrom_digits hlength hdigits, lexCode, hlow]

/-- The first unit of a pair is refused without a second one. -/
theorem pairFault {c : Char} (hc : c ≠ '\\') (text high : List Char) :
    Follows (.pair text high) after (c :: r) r' := by
  refine fault (w := [c]) fun p start slash found rest => ?_
  simp [Form.pair, scanFrom, lexStep, hc]

end Follows

section Scalar

variable {r r' s : List Char}

-- What follows a numeric escape is read in one of two forms, so the induction carries both.
theorem follows_quotedText (hs : IsQuotedText s) (h : Follows .between true r r') :
    (∀ text, Follows (.quoted text) after (s ++ '"' :: r) (s ++ '"' :: r')) ∧
      ∀ text high, Follows (.pair text high) after (s ++ '"' :: r) (s ++ '"' :: r') := by
  induction hs with
  | nil => exact ⟨fun text => .closed h, .pairFault (by decide)⟩
  | @plain c s hquote hslash _ _ ih =>
    refine ⟨fun text => ?_, .pairFault hslash⟩
    refine .step (w := [c]) (fun p start slash found rest => ⟨p + 1, start, slash, ?_⟩)
      (ih.1 (c :: text))
    simp [Form.quoted, scanFrom, lexStep, hquote, hslash]
  | @escape c s hc _ ih =>
    have hne : c ≠ 'u' := by
      rintro rfl
      exact absurd hc (by decide)
    refine ⟨fun text => .escape hc text ih.1, fun text high => ?_⟩
    refine .fault (w := ['\\', c]) fun p start slash found rest => ?_
    simp [Form.pair, scanFrom, lexStep, hne]
  | @code digits s hlength hdigits _ ih =>
    simp only [List.cons_append, List.append_assoc]
    exact ⟨fun text => .code hlength hdigits text ih.1 ih.2,
      fun text high => .secondCode hlength hdigits text high ih.1⟩

theorem IsQuoted.follows (hs : IsQuoted s) (h : Follows .between true r r') :
    Follows .between after (s ++ r) (s ++ r') := by
  obtain ⟨text, htext, rfl⟩ := hs
  simp only [List.cons_append, List.append_assoc, List.nil_append]
  exact .opened ((follows_quotedText htext h).1 [])

/-! ### Numbers and keywords -/

theorem IsNumber.follows (hs : IsNumber s) (hr : Ends r) (hr' : Ends r')
    (h : Follows .between true r r') : Follows .between after (s ++ r) (s ++ r') :=
  .token (t := numberToken s) (fun _ _ => exists_scanFrom_number hs hr)
    (fun _ _ => exists_scanFrom_number hs hr') h

theorem IsKeyword.follows (hs : IsKeyword s) (hr : Ends r) (hr' : Ends r')
    (h : Follows .between true r r') : Follows .between after (s ++ r) (s ++ r') := by
  obtain ⟨t, ht, hvalue⟩ : ∃ t, keyword? s = some t ∧ endsValue t = true := by
    simp only [IsKeyword, List.mem_cons, List.not_mem_nil, or_false] at hs
    rcases hs with rfl | rfl | rfl <;> exact ⟨_, rfl, rfl⟩
  exact .token (fun p found => exists_scanFrom_keyword ht hr)
    (fun p found => exists_scanFrom_keyword ht hr') (by rwa [hvalue])

theorem IsScalar.follows (hs : IsScalar s) (hr : Ends r) (hr' : Ends r')
    (h : Follows .between true r r') : Follows .between after (s ++ r) (s ++ r') := by
  cases hs with
  | quoted hs => exact hs.follows h
  | number hs => exact hs.follows hr hr' h
  | keyword hs => exact hs.follows hr hr' h

end Scalar

/-! ### Gaps and containers -/

theorem ends_cons {c : Char} (hc : c ∈ separators) (s : List Char) : Ends (c :: s) := by
  rintro _ ⟨⟩
  exact hc

theorem Container.ends_closing (k : Container) (s : List Char) : Ends (k.closing :: s) := by
  cases k <;> exact ends_cons (by decide) s

namespace Widens

variable {w w' : List Char}

theorem gap_left (h : Widens w w') : Gap w := by
  induction h with
  | nil => exact .nil
  | keep hc _ ih => exact .blank (isBlank_of_isSpace hc) ih
  | space _ _ ih => exact ih
  | lineComment _ _ _ ih => exact ih
  | blockComment _ _ ih => exact ih

theorem gap_right (h : Widens w w') : Gap w' := by
  induction h with
  | nil => exact .nil
  | keep hc _ ih => exact .blank (isBlank_of_isSpace hc) ih
  | space hc _ ih => exact .blank (isBlank_of_isSpace hc) ih
  | lineComment hline _ _ ih => exact .lineComment hline ih
  | blockComment htext _ ih => exact .blockComment htext ih

/-- A number or a keyword ends before a gap as it does without it. -/
theorem ends (h : Widens w w') {s : List Char} (hs : Ends s) : Ends (w ++ s) ∧ Ends (w' ++ s) := by
  have hspace {c : Char} (hc : isSpace c = true) : c ∈ separators :=
    mem_separators_of_isSeparator (by simp [isSeparator, hc])
  have hslash : '/' ∈ separators := by decide
  induction h with
  | nil => exact ⟨hs, hs⟩
  | keep hc _ _ => exact ⟨ends_cons (hspace hc) _, ends_cons (hspace hc) _⟩
  | space hc _ ih => exact ⟨ih.1, ends_cons (hspace hc) _⟩
  | lineComment _ _ _ ih => exact ⟨ih.1, ends_cons hslash _⟩
  | blockComment _ _ ih => exact ⟨ih.1, ends_cons hslash _⟩

theorem follows (h : Widens w w') {r r' : List Char} (hr : Follows .between after r r') :
    Follows .between after (w ++ r) (w' ++ r') :=
  .gap h.gap_left h.gap_right hr

end Widens

/-- What is left of two texts agrees with a part before it, if it agrees without the part. -/
def Part.Precedes : Part → List Char → List Char → Prop
  | value, s, s' | entry _, s, s' => ∀ after r r', Ends r → Ends r' →
    Follows .between true r r' → Follows .between after (s ++ r) (s' ++ r')
  | entries k, s, s' => ∀ after r r', Follows .between true r r' →
    Follows .between after (s ++ k.closing :: r) (s' ++ k.closing :: r')
  | text, s, s' => Follows .between false s s'

theorem Annotates.precedes {part : Part} {s s' : List Char} (h : Annotates part s s') :
    part.Precedes s s' := by
  have hcomma : ',' ∈ separators := by decide
  induction h with
  | scalar h => exact fun after r r' hr hr' hfollows => h.follows hr hr' hfollows
  | empty k h =>
    intro after r r' _ _ hfollows
    simp only [List.cons_append, List.append_assoc, List.nil_append]
    exact .opening k (h.follows (.closing k hfollows))
  | @container k _ _ _ ih =>
    intro after r r' _ _ hfollows
    simp only [List.cons_append, List.append_assoc, List.nil_append]
    exact .opening k (ih false r r' hfollows)
  | item _ ih => exact ih
  | member hname hu hv _ ih =>
    intro after r r' hr hr' hfollows
    simp only [List.cons_append, List.append_assoc]
    refine hname.follows (hu.follows ?_)
    exact .punctuation (t := .colon) rfl (hv.follows (ih false r r' hr hr' hfollows))
  | @last k _ _ _ _ _ _ hu _ hv ih =>
    intro after r r' hfollows
    simp only [List.append_assoc]
    refine hu.follows (ih after _ _ ?_ ?_ (hv.follows (.closing k hfollows)))
    · exact (hv.ends (k.ends_closing r)).1
    · exact (hv.ends (k.ends_closing r')).2
  | @lastComma k _ _ _ _ _ _ _ _ hu _ hv hw ih =>
    intro after r r' hfollows
    simp only [List.cons_append, List.append_assoc]
    refine hu.follows (ih after _ _ ?_ ?_ (hv.follows ?_))
    · exact (hv.ends (hw.ends (k.ends_closing r)).1).1
    · exact (hv.ends (ends_cons hcomma _)).2
    · exact .gap hw.gap_left .nil (.comma k hw.gap_right hfollows)
  | cons hu _ hv _ ih ihrest =>
    intro after r r' hfollows
    simp only [List.cons_append, List.append_assoc]
    refine hu.follows (ih after _ _ ?_ ?_ (hv.follows ?_))
    · exact (hv.ends (ends_cons hcomma _)).1
    · exact (hv.ends (ends_cons hcomma _)).2
    · exact .punctuation (t := .comma) rfl (ihrest false r r' hfollows)
  | text hu _ hv ih =>
    have hends : Ends [] := by simp [Ends]
    have hnil : Follows .between true [] [] := .nil
    have hv' := hv.follows hnil
    have hvends := hv.ends hends
    simp only [List.append_nil] at hv' hvends
    exact hu.follows (ih false _ _ hvends.1 hvends.2 hv')

/-- **The tokens of an annotated text**: nothing is wrong with it if nothing is with the text, and
it has the same tokens, with commas. -/
theorem loosens_of_annotates {text text' : List Char} (h : Annotates .text text text')
    (htrouble : (scan text).trouble = none) :
    (scan text').trouble = none ∧ Loosens false (scan text).tokens (scan text').tokens := by
  obtain ⟨htrouble', new, new', hnew, hnew', hloosens⟩ := h.precedes 0 0 0 0 0 0 [] [] htrouble
  rw [List.reverse_nil, List.nil_append] at hnew hnew'
  exact ⟨htrouble', hnew ▸ hnew' ▸ hloosens⟩

end ErrorDocs.Json.Commented
