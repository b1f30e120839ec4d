import ErrorDocs.Json.Commented.Reader
import ErrorDocs.Proofs.Json.Lexing
import ErrorDocs.Proofs.Text.Search

/-!
# Tokens of the commented dialect

The dialect extends JSON. It passes over blanks and comments between tokens, and in a text that
spells tokens in JSON it finds these tokens.

* `Gap`, `scanFrom_gap`: blanks and comments are passed over.
* `Tokenless`, `read_of_tokenless`: a text of nothing else has no value.
* `IsNumber`, `isNumber_of_parse?`: the grammar of numbers.
* `exists_scanFrom_quote`, `exists_scanFrom_keyword`, `exists_scanFrom_number`: one token, where
  what follows a number or a keyword `Ends` it.
* **`tokens_scan_of_spells`**: the tokens of a text that spells them in JSON.
-/

namespace ErrorDocs.Json.Commented

variable {position start : Nat} {found : List Located} {rest : List Char}

/-! ## Blanks and comments -/

/-- Texts between two tokens: blanks, comments to the end of a line, and comments that are
closed. -/
inductive Gap : List Char → Prop where
  | nil : Gap []
  | blank {c : Char} {s : List Char} (hc : Text.isBlank c = true) (h : Gap s) : Gap (c :: s)
  | lineComment {text s : List Char} (ht : '\n' ∉ text) (h : Gap s) :
      Gap ('/' :: '/' :: (text ++ '\n' :: s))
  | blockComment {text s : List Char} (ht : ¬ ['*', '/'] <:+: text) (h : Gap s) :
      Gap ('/' :: '*' :: (text ++ '*' :: '/' :: s))

theorem scanFrom_lineComment {text : List Char} (h : '\n' ∉ text) :
    scanFrom position .lineComment found (text ++ rest) =
      scanFrom (position + text.length) .lineComment found rest := by
  induction text generalizing position with
  | nil => rfl
  | cons c text ih =>
    rw [List.mem_cons, not_or] at h
    rw [List.cons_append, scanFrom, lexStep, if_neg (Ne.symm h.1), List.length_cons,
      ← Nat.add_assoc, Nat.add_right_comm position]
    exact ih h.2

/-- A comment is closed by the first star with a slash after it. -/
theorem scanFrom_blockComment {text : List Char} {star : Bool} (h : ¬ ['*', '/'] <:+: text)
    (hstar : star = true → text.head? ≠ some '/') :
    scanFrom position (.blockComment start star) found (text ++ '*' :: '/' :: rest) =
      scanFrom (position + text.length + 2) .between found rest := by
  induction text generalizing position star with
  | nil => simp [scanFrom, lexStep]
  | cons c text ih =>
    rw [Text.pair_infix_cons, not_or] at h
    have hopen : ¬ (star = true ∧ c = '/') := fun ⟨hs, hc⟩ => hstar hs (by simp [hc])
    have hrest : decide (c = '*') = true → text.head? ≠ some '/' := fun hc hhead =>
      h.1 ⟨of_decide_eq_true hc, hhead⟩
    rw [List.cons_append, scanFrom, lexStep, if_neg hopen, List.length_cons, ← Nat.add_assoc,
      Nat.add_right_comm position]
    exact ih h.2 hrest

theorem scanFrom_gap {gap : List Char} (h : Gap gap) :
    scanFrom position .between found (gap ++ rest) =
      scanFrom (position + gap.length) .between found rest := by
  induction h generalizing position with
  | nil => rfl
  | blank hc h ih =>
    rw [List.cons_append, scanFrom, lexStep, lexBetween, if_pos hc, List.length_cons,
      ← Nat.add_assoc, Nat.add_right_comm position]
    exact ih
  | @lineComment text s ht h ih =>
    have hopen : scanFrom position .between found ('/' :: '/' :: (text ++ '\n' :: s) ++ rest) =
        scanFrom (position + 2) .lineComment found (text ++ '\n' :: (s ++ rest)) := by
      simp [scanFrom, lexStep, lexBetween, Text.isBlank, punctuation?]
    rw [hopen, scanFrom_lineComment ht, scanFrom, lexStep, if_pos rfl]
    simp only [List.length_cons, List.length_append, ih]
    congr 1
    omega
  | @blockComment text s ht h ih =>
    have hopen :
        scanFrom position .between found ('/' :: '*' :: (text ++ '*' :: '/' :: s) ++ rest) =
        scanFrom (position + 2) (.blockComment position false) found
          (text ++ '*' :: '/' :: (s ++ rest)) := by
      simp [scanFrom, lexStep, lexBetween, Text.isBlank, punctuation?]
    rw [hopen, scanFrom_blockComment ht (by simp), ih]
    congr 1
    simp only [List.length_cons, List.length_append]
    omega

/-- Texts with nothing but blanks and comments; the last comment may end with the text. -/
inductive Tokenless : List Char → Prop where
  | gap {gap : List Char} (h : Gap gap) : Tokenless gap
  | lastLine {gap text : List Char} (h : Gap gap) (ht : '\n' ∉ text) :
      Tokenless (gap ++ '/' :: '/' :: text)

/-- **A text without tokens has no value.** -/
theorem read_of_tokenless {text : List Char} (h : Tokenless text) : read text = .ok none := by
  have hscan : ∃ length, scan text = ⟨[], length, none⟩ := by
    cases h with
    | gap h =>
      rw [← List.append_nil text, scan, scanFrom_gap h]
      exact ⟨_, rfl⟩
    | @lastLine gap text h ht =>
      have hopen (position : Nat) : scanFrom position .between [] ('/' :: '/' :: text) =
          scanFrom (position + 2) .lineComment [] (text ++ []) := by
        simp [scanFrom, lexStep, lexBetween, Text.isBlank, punctuation?]
      rw [scan, scanFrom_gap h, hopen, scanFrom_lineComment ht]
      exact ⟨_, rfl⟩
  obtain ⟨length, hscan⟩ := hscan
  rw [read, hscan]
  rfl

/-! ## Texts in quotes -/

/-- The digits of a numeric escape are taken together. -/
theorem scanFrom_digits {digits : List Char} (hlength : digits.length = 4)
    (hdigits : ∀ c ∈ digits, (Number.hexValue? c).isSome) (q : Quoted) (backslash : Nat)
    (high : Option (List Char)) :
    scanFrom position (.code q backslash high []) found (digits ++ rest) =
      match lexCode q backslash high digits with
      | .ok mode => scanFrom (position + 4) mode found rest
      | .error t => ⟨found.reverse, position + 3, some t⟩ := by
  match digits, hlength with
  | [a, b, c, d], _ =>
    simp only [List.forall_mem_cons] at hdigits
    simp only [List.cons_append, List.nil_append, scanFrom, lexStep, lexHex, hdigits, if_true,
      List.length_nil, List.length_cons, Nat.reduceAdd, Nat.reduceLT, if_false, List.reverse_cons,
      List.reverse_nil]
    cases lexCode q backslash high [a, b, c, d] <;> rfl

/-- The digits of a control character are read as that character. -/
theorem scanFrom_code {c : Char} (h : c.toNat < 0x20) (q : Quoted) (backslash : Nat) :
    scanFrom position (.escape q backslash) found
        ('u' :: '0' :: '0' :: hexDigit (c.toNat / 16) :: hexDigit (c.toNat % 16) :: rest) =
      scanFrom (position + 5) (.quoted { q with text := c :: q.text }) found rest := by
  have hzero : Number.hexValue? '0' = some 0 := by decide
  have hhigh := hexValue?_hexDigit (c.toNat / 16) (by omega)
  have hlow := hexValue?_hexDigit (c.toNat % 16) (by omega)
  have hvalue :
      Number.natOfHex ['0', '0', hexDigit (c.toNat / 16), hexDigit (c.toNat % 16)] = c.toNat := by
    simp only [Number.natOfHex, List.foldl_cons, List.foldl_nil, hzero, hhigh, hlow,
      Option.getD_some]
    omega
  have hfirst : isHighSurrogate c.toNat = false := by
    rw [isHighSurrogate, decide_eq_false (by omega), Bool.false_and]
  have hsecond : isLowSurrogate c.toNat = false := by
    rw [isLowSurrogate, decide_eq_false (by omega), Bool.false_and]
  simp [scanFrom, lexStep, lexEscape, lexHex, hzero, hhigh, hlow, lexCode, hvalue, hfirst, hsecond,
    Char.ofNat_toNat]

theorem exists_scanFrom_escapeChar (position : Nat) (c : Char) (text : List Char) :
    ∃ position', scanFrom position (.quoted ⟨start, '"', text⟩) found (escapeChar c ++ rest) =
      scanFrom position' (.quoted ⟨start, '"', c :: text⟩) found rest := by
  unfold escapeChar
  split_ifs with hquote hslash hback htab hline hform hreturn hcontrol
  · subst hquote; exact ⟨_, rfl⟩
  · subst hslash; exact ⟨_, rfl⟩
  · subst hback; exact ⟨_, rfl⟩
  · subst htab; exact ⟨_, rfl⟩
  · subst hline; exact ⟨_, rfl⟩
  · subst hform; exact ⟨_, rfl⟩
  · subst hreturn; exact ⟨_, rfl⟩
  · exact ⟨_, scanFrom_code hcontrol ⟨start, '"', text⟩ position⟩
  · exact ⟨position + 1, by simp [scanFrom, lexStep, hquote, hslash]⟩

theorem exists_scanFrom_escaped (position : Nat) (s text : List Char) :
    ∃ position', scanFrom position (.quoted ⟨start, '"', text⟩) found
        (s.flatMap escapeChar ++ rest) =
      scanFrom position' (.quoted ⟨start, '"', s.reverse ++ text⟩) found rest := by
  induction s generalizing position text with
  | nil => exact ⟨position, rfl⟩
  | cons c s ih =>
    rw [List.flatMap_cons, List.append_assoc, List.reverse_cons, List.append_assoc,
      List.singleton_append]
    obtain ⟨position₁, hfirst⟩ := exists_scanFrom_escapeChar position c text
    obtain ⟨position₂, hrest⟩ := ih position₁ (c :: text)
    exact ⟨position₂, hfirst.trans hrest⟩

theorem exists_scanFrom_quote (position : Nat) (s : List Char) :
    ∃ position', scanFrom position .between found (quote s ++ rest) =
      scanFrom position' .between (⟨position, .string s⟩ :: found) rest := by
  obtain ⟨position', hinside⟩ := exists_scanFrom_escaped (position + 1) s []
  refine ⟨position' + 1, ?_⟩
  have hopen : scanFrom position .between found (quote s ++ rest) =
      scanFrom (position + 1) (.quoted ⟨position, '"', []⟩) found
        (s.flatMap escapeChar ++ '"' :: rest) := by
    simp [quote, scanFrom, lexStep, lexBetween, Text.isBlank, punctuation?]
  rw [hopen, hinside]
  simp [scanFrom, lexStep]

/-! ## Numbers and keywords -/

/-- The characters at which a number or a keyword ends: those of JSON, and the slash that opens a
comment. -/
def separators : List Char :=
  [' ', '\t', '\n', '\r', '"', leftBrace, rightBrace, '[', ']', ',', ':', '/']

theorem mem_separators_of_isSeparator {c : Char} (h : isSeparator c = true) : c ∈ separators := by
  simp only [isSeparator, isSpace, Bool.or_eq_true, beq_iff_eq] at h
  rcases h with ((((rfl | rfl) | rfl) | rfl) | rfl) | h
  iterate 5 decide
  unfold punctuation? at h
  split_ifs at h <;> subst_vars <;> first | decide | cases h

/-- Texts before which a number or a keyword ends. -/
def Ends (s : List Char) : Prop :=
  ∀ c ∈ s.head?, c ∈ separators

theorem Ends.of_breaks {s : List Char} (h : Breaks s) : Ends s := fun c hc =>
  mem_separators_of_isSeparator (h c hc)

theorem advance?_of_mem_separators {c : Char} (h : c ∈ separators) (part : NumberPart) :
    part.advance? c = none := by
  have hall : separators.all (fun c => (part.advance? c).isNone) = true := by
    cases part <;> decide
  exact Option.isNone_iff_eq_none.mp (List.all_eq_true.mp hall c h)

theorem not_isAlphanumeric_of_mem_separators {c : Char} (h : c ∈ separators) :
    Text.isAlphanumeric c = false := by
  have hall : separators.all (fun c => !Text.isAlphanumeric c) = true := by decide
  simpa using List.all_eq_true.mp hall c h

/-- A keyword ends before a separator. -/
theorem scanFrom_word {text : List Char} {t : Token} (ht : keyword? text.reverse = some t)
    (h : Ends rest) :
    scanFrom position (.word start text) found rest =
      scanFrom position .between (⟨start, t⟩ :: found) rest := by
  cases rest with
  | nil => simp [scanFrom, lexEnd, ht]
  | cons c rest =>
    have hc := not_isAlphanumeric_of_mem_separators (h c rfl)
    have hstep : lexStep position (.word start text) found c =
        lexStep position .between (⟨start, t⟩ :: found) c := by
      simp [lexStep, ht, hc]
    rw [scanFrom, hstep, scanFrom]

theorem exists_scanFrom_keyword {text : List Char} {t : Token} (ht : keyword? text = some t)
    (h : Ends rest) :
    ∃ position', scanFrom position .between found (text ++ rest) =
      scanFrom position' .between (⟨position, t⟩ :: found) rest := by
  have hread : scanFrom position .between found (text ++ rest) =
      scanFrom (position + text.length) (.word position text.reverse) found rest := by
    unfold keyword? at ht
    split_ifs at ht with htrue hfalse hnull
    · subst htrue; rfl
    · subst hfalse; rfl
    · subst hnull; rfl
  exact ⟨_, hread.trans (scanFrom_word (by rwa [List.reverse_reverse]) h)⟩

namespace NumberPart

/-- The part that a number has come to after further characters, if they all belong to it. -/
def run? (part : NumberPart) (text : List Char) : Option NumberPart :=
  text.foldlM advance? part

theorem run?_cons {part next : NumberPart} {c : Char} (h : part.advance? c = some next)
    (text : List Char) : part.run? (c :: text) = next.run? text := by
  rw [run?, List.foldlM_cons, h]
  rfl

theorem run?_append {part next : NumberPart} {text : List Char} (h : part.run? text = some next)
    (text' : List Char) : part.run? (text ++ text') = next.run? text' := by
  rw [run?, List.foldlM_append]
  rw [run?] at h
  rw [h]
  rfl

/-- The parts that go on with each digit. -/
theorem run?_digits {part : NumberPart} (hpart : part = .whole ∨ part = .fraction ∨
    part = .exponentDigits) {digits : List Char} (h : ∀ c ∈ digits, c.isDigit = true) :
    part.run? digits = some part := by
  induction digits with
  | nil => rfl
  | cons c digits ih =>
    rw [List.forall_mem_cons] at h
    have hstep : part.advance? c = some part := by
      rcases hpart with rfl | rfl | rfl <;> exact if_pos h.1
    rw [run?_cons hstep, ih h.2]

end NumberPart

/-! ### The grammar of numbers -/

/-- One digit or more. -/
def IsDigits (s : List Char) : Prop :=
  s ≠ [] ∧ ∀ c ∈ s, c.isDigit = true

/-- The digits of a number before the point: a zero is the only one or not the first. -/
def IsWhole (s : List Char) : Prop :=
  IsDigits s ∧ (s = ['0'] ∨ s.head? ≠ some '0')

/-- The point of a number and what follows it, if there is one. -/
def IsFraction (s : List Char) : Prop :=
  s = [] ∨ ∃ digits, IsDigits digits ∧ s = '.' :: digits

/-- The exponent of a number, if there is one. -/
def IsExponent (s : List Char) : Prop :=
  s = [] ∨ ∃ mark ∈ ['e', 'E'], ∃ sign ∈ [[], ['+'], ['-']], ∃ digits, IsDigits digits ∧
    s = mark :: (sign ++ digits)

/-- A number. -/
def IsNumber (s : List Char) : Prop :=
  ∃ sign ∈ [[], ['-']], ∃ whole fraction exponent, IsWhole whole ∧ IsFraction fraction ∧
    IsExponent exponent ∧ s = sign ++ (whole ++ (fraction ++ exponent))

open NumberPart (run?_cons run?_append run?_digits)

section Runs

variable {s : List Char}

theorem IsWhole.exists_run? (h : IsWhole s) :
    ∃ c w part, s = c :: w ∧ NumberPart.ofDigit? c = some part ∧ part.run? w = some part ∧
      (part = .zero ∨ part = .whole) := by
  obtain ⟨⟨hne, hdigits⟩, hzero⟩ := h
  cases s with
  | nil => exact (hne rfl).elim
  | cons c w =>
    rw [List.forall_mem_cons] at hdigits
    by_cases hc : c = '0'
    · subst hc
      have hw : w = [] := by simpa using hzero
      exact ⟨'0', w, .zero, rfl, rfl, by rw [hw]; rfl, .inl rfl⟩
    · refine ⟨c, w, .whole, rfl, ?_, run?_digits (.inl rfl) hdigits.2, .inr rfl⟩
      rw [NumberPart.ofDigit?, if_neg hc, if_pos hdigits.1]

theorem IsFraction.exists_run? (h : IsFraction s) {part : NumberPart}
    (hpart : part = .zero ∨ part = .whole) :
    ∃ next, part.run? s = some next ∧ (next = .zero ∨ next = .whole ∨ next = .fraction) := by
  rcases h with rfl | ⟨digits, ⟨hne, hdigits⟩, rfl⟩
  · exact ⟨part, rfl, hpart.imp_right .inl⟩
  · have hpoint : part.advance? '.' = some .point := by rcases hpart with rfl | rfl <;> rfl
    cases digits with
    | nil => exact (hne rfl).elim
    | cons c digits =>
      rw [List.forall_mem_cons] at hdigits
      have hfirst : NumberPart.point.advance? c = some .fraction := if_pos hdigits.1
      refine ⟨.fraction, ?_, .inr (.inr rfl)⟩
      rw [run?_cons hpoint, run?_cons hfirst, run?_digits (.inr (.inl rfl)) hdigits.2]

theorem IsExponent.exists_run? (h : IsExponent s) {part : NumberPart}
    (hpart : part = .zero ∨ part = .whole ∨ part = .fraction) :
    ∃ last, part.run? s = some last ∧ last.missing? = none := by
  rcases h with rfl | ⟨mark, hmark, sign, hsign, digits, ⟨hne, hdigits⟩, rfl⟩
  · exact ⟨part, rfl, by rcases hpart with rfl | rfl | rfl <;> rfl⟩
  · have hmark : part.advance? mark = some .exponentMark := by
      simp only [List.mem_cons, List.not_mem_nil, or_false] at hmark
      rcases hmark with rfl | rfl <;> rcases hpart with rfl | rfl | rfl <;> rfl
    cases digits with
    | nil => exact (hne rfl).elim
    | cons c digits =>
      rw [List.forall_mem_cons] at hdigits
      have hrest : NumberPart.exponentDigits.run? digits = some .exponentDigits :=
        run?_digits (.inr (.inr rfl)) hdigits.2
      have hplain : ¬ (c = '+' ∨ c = '-') := by
        rintro (rfl | rfl) <;> exact absurd hdigits.1 (by decide)
      have hafterMark : NumberPart.exponentMark.advance? c = some .exponentDigits :=
        (if_neg hplain).trans (if_pos hdigits.1)
      have hafterSign : NumberPart.exponentSign.advance? c = some .exponentDigits :=
        if_pos hdigits.1
      have hplus : NumberPart.exponentMark.advance? '+' = some .exponentSign := rfl
      have hminus : NumberPart.exponentMark.advance? '-' = some .exponentSign := rfl
      refine ⟨.exponentDigits, ?_, rfl⟩
      rw [run?_cons hmark]
      simp only [List.mem_cons, List.not_mem_nil, or_false] at hsign
      rcases hsign with rfl | rfl | rfl
      · rw [List.nil_append, run?_cons hafterMark, hrest]
      · rw [List.singleton_append, run?_cons hplus, run?_cons hafterSign, hrest]
      · rw [List.singleton_append, run?_cons hminus, run?_cons hafterSign, hrest]

end Runs

/-! ### Numerals -/

theorem spanDigits_spec {s digits rest : List Char} (h : Numeral.spanDigits s = (digits, rest)) :
    s = digits ++ rest ∧ ∀ c ∈ digits, c.isDigit = true := by
  obtain ⟨rfl, rfl⟩ := Prod.mk.inj h
  exact ⟨List.takeWhile_append_dropWhile.symm, fun c hc => List.mem_takeWhile_imp hc⟩

theorem exists_isWhole_of_parseWhole? {s digits rest : List Char}
    (h : Numeral.parseWhole? s = some (digits, rest)) :
    ∃ whole, IsWhole whole ∧ s = whole ++ rest := by
  unfold Numeral.parseWhole? at h
  cases hspan : Numeral.spanDigits s with
  | mk digits' rest' =>
    obtain ⟨rfl, hdigits⟩ := spanDigits_spec hspan
    rw [hspan] at h
    split at h
    · cases h
    · rename_i heq
      obtain ⟨rfl, rfl⟩ := Prod.mk.inj heq
      obtain ⟨-, rfl⟩ := Prod.mk.inj (Option.some.inj h)
      exact ⟨['0'], ⟨⟨by simp, hdigits⟩, .inl rfl⟩, rfl⟩
    · cases h
    · rename_i hnil _ hzeros heq
      obtain ⟨rfl, rfl⟩ := Prod.mk.inj heq
      obtain ⟨-, rfl⟩ := Prod.mk.inj (Option.some.inj h)
      refine ⟨digits', ⟨⟨fun hempty => hnil hempty, hdigits⟩, .inr fun hhead => ?_⟩, rfl⟩
      obtain ⟨w, rfl⟩ := List.head?_eq_some_iff.mp hhead
      exact hzeros w rfl

theorem exists_isFraction_of_parseFraction? {s rest : List Char} {digits : Option (List Char)}
    (h : Numeral.parseFraction? s = some (digits, rest)) :
    ∃ fraction, IsFraction fraction ∧ s = fraction ++ rest := by
  unfold Numeral.parseFraction? at h
  split at h
  · rename_i s
    cases hspan : Numeral.spanDigits s with
    | mk digits' rest' =>
      obtain ⟨rfl, hdigits⟩ := spanDigits_spec hspan
      rw [hspan] at h
      cases digits' with
      | nil => cases h
      | cons c digits' =>
        obtain ⟨-, rfl⟩ := Prod.mk.inj (Option.some.inj h)
        exact ⟨'.' :: c :: digits', .inr ⟨c :: digits', ⟨by simp, hdigits⟩, rfl⟩, rfl⟩
  · obtain ⟨-, rfl⟩ := Prod.mk.inj (Option.some.inj h)
    exact ⟨[], .inl rfl, rfl⟩

theorem isDigits_of_parseExponentDigits? {s : List Char} {below : Bool} {e : Bool × List Char}
    (h : Numeral.parseExponentDigits? below s = some e) : IsDigits s := by
  unfold Numeral.parseExponentDigits? at h
  cases hspan : Numeral.spanDigits s with
  | mk digits rest =>
    obtain ⟨rfl, hdigits⟩ := spanDigits_spec hspan
    rw [hspan] at h
    cases digits with
    | nil => cases h
    | cons c digits =>
      cases rest with
      | cons d rest => cases h
      | nil =>
        rw [List.append_nil]
        exact ⟨by simp, hdigits⟩

theorem isExponent_of_parseExponent? {s : List Char} {e : Option (Bool × List Char)}
    (h : Numeral.parseExponent? s = some e) : IsExponent s := by
  unfold Numeral.parseExponent? at h
  split at h
  · exact .inl rfl
  · rename_i mark _
    split_ifs at h with hmark
    have hmark : mark ∈ ['e', 'E'] := by simpa using hmark
    split at h
    · obtain ⟨e, he, -⟩ := Option.map_eq_some_iff.mp h
      exact .inr ⟨mark, hmark, ['+'], by simp, _, isDigits_of_parseExponentDigits? he, rfl⟩
    · obtain ⟨e, he, -⟩ := Option.map_eq_some_iff.mp h
      exact .inr ⟨mark, hmark, ['-'], by simp, _, isDigits_of_parseExponentDigits? he, rfl⟩
    · obtain ⟨e, he, -⟩ := Option.map_eq_some_iff.mp h
      exact .inr ⟨mark, hmark, [], by simp, _, isDigits_of_parseExponentDigits? he, rfl⟩

theorem isNumber_of_parseUnsigned? {negative : Bool} {s : List Char} {l : Numeral}
    (h : Numeral.parseUnsigned? negative s = some l) (sign : List Char)
    (hsign : sign ∈ [[], ['-']]) : IsNumber (sign ++ s) := by
  unfold Numeral.parseUnsigned? at h
  split at h
  · cases h
  · rename_i hwhole
    split at h
    · cases h
    · rename_i hfraction
      split at h
      · cases h
      · rename_i hexponent
        obtain ⟨whole, hisWhole, rfl⟩ := exists_isWhole_of_parseWhole? hwhole
        obtain ⟨fraction, hisFraction, rfl⟩ := exists_isFraction_of_parseFraction? hfraction
        exact ⟨sign, hsign, whole, fraction, _, hisWhole, hisFraction,
          isExponent_of_parseExponent? hexponent, rfl⟩

theorem isNumber_of_parse? {text : List Char} {l : Numeral} (h : Numeral.parse? text = some l) :
    IsNumber text := by
  unfold Numeral.parse? at h
  split at h
  · exact isNumber_of_parseUnsigned? h ['-'] (by simp)
  · exact isNumber_of_parseUnsigned? h [] (by simp)

/-- The value of a numeral is the same in the dialect. -/
theorem unsignedValue?_of_parseUnsigned? {negative : Bool} {s : List Char} {l : Numeral}
    (h : Numeral.parseUnsigned? negative s = some l) : unsignedValue? negative s = l.value? := by
  unfold unsignedValue?
  split
  · cases h
  · cases h
  · rw [h, Option.bind_some]

theorem numberValue?_of_parse? {text : List Char} {l : Numeral}
    (h : Numeral.parse? text = some l) : numberValue? text = l.value? := by
  unfold Numeral.parse? at h
  split at h
  · exact unsignedValue?_of_parseUnsigned? h
  · rename_i hminus
    unfold numberValue?
    split
    · exact absurd rfl (hminus _)
    · cases h
    · exact unsignedValue?_of_parseUnsigned? h

theorem exists_scanFrom_run (position : Nat) {part last : NumberPart} {w : List Char}
    (h : part.run? w = some last) (text : List Char) :
    ∃ position', scanFrom position (.number start text part) found (w ++ rest) =
      scanFrom position' (.number start (w.reverse ++ text) last) found rest := by
  induction w generalizing position part text with
  | nil =>
    obtain rfl := Option.some.inj h
    exact ⟨position, rfl⟩
  | cons c w ih =>
    cases hc : part.advance? c with
    | none =>
      rw [NumberPart.run?, List.foldlM_cons, hc] at h
      cases h
    | some next =>
      rw [run?_cons hc] at h
      obtain ⟨position', hw⟩ := ih (position + 1) h (c :: text)
      refine ⟨position', ?_⟩
      rw [List.cons_append, scanFrom, lexStep, hc, List.reverse_cons, List.append_assoc,
        List.singleton_append]
      exact hw

/-- A number ends before a separator. -/
theorem scanFrom_number {text : List Char} {part : NumberPart} (hpart : part.missing? = none)
    (h : Ends rest) :
    scanFrom position (.number start text part) found rest =
      scanFrom position .between (⟨start, numberToken text.reverse⟩ :: found) rest := by
  cases rest with
  | nil => simp [scanFrom, lexEnd, hpart]
  | cons c rest =>
    have hstep : lexStep position (.number start text part) found c =
        lexStep position .between (⟨start, numberToken text.reverse⟩ :: found) c := by
      simp [lexStep, advance?_of_mem_separators (h c rfl), hpart]
    rw [scanFrom, hstep, scanFrom]

theorem lexBetween_of_ofDigit? {c : Char} {part : NumberPart}
    (h : NumberPart.ofDigit? c = some part) :
    lexBetween position found c = ⟨found, .ok (.number position [c] part)⟩ := by
  have hdigit : c.isDigit = true := by
    unfold NumberPart.ofDigit? at h
    split_ifs at h with hzero hc
    · subst hzero
      rfl
    · exact hc
  have hne {d : Char} (hd : d.isDigit = false) : c ≠ d := by
    rintro rfl
    exact absurd (hdigit.symm.trans hd) (by decide)
  have hblank : Text.isBlank c = false := by
    have hrange : 0x30 ≤ c.toNat ∧ c.toNat ≤ 0x39 := Char.isDigit_iff_toNat.mp hdigit
    simp [Text.isBlank]
    omega
  simp [lexBetween, hblank, punctuation?, hne, h]

theorem exists_scanFrom_signed {sign w : List Char} (hsign : sign ∈ [[], ['-']]) {c : Char}
    {part last : NumberPart} (hc : NumberPart.ofDigit? c = some part)
    (hw : part.run? w = some last) :
    ∃ position', scanFrom position .between found (sign ++ c :: w ++ rest) =
      scanFrom position' (.number position (sign ++ c :: w).reverse last) found rest := by
  simp only [List.mem_cons, List.not_mem_nil, or_false] at hsign
  rcases hsign with rfl | rfl
  · obtain ⟨position', hrun⟩ := exists_scanFrom_run (position + 1) hw [c]
    refine ⟨position', ?_⟩
    rw [List.nil_append, List.cons_append, scanFrom, lexStep, lexBetween_of_ofDigit? hc,
      List.reverse_cons]
    exact hrun
  · have hrun? : NumberPart.sign.run? (c :: w) = some last := by
      rw [run?_cons (show NumberPart.sign.advance? c = some part from hc), hw]
    obtain ⟨position', hrun⟩ := exists_scanFrom_run (position + 1) hrun? ['-']
    refine ⟨position', ?_⟩
    rw [List.singleton_append, List.reverse_cons]
    exact hrun

/-- A number is read up to a separator. -/
theorem exists_scanFrom_number {text : List Char} (htext : IsNumber text) (h : Ends rest) :
    ∃ position', scanFrom position .between found (text ++ rest) =
      scanFrom position' .between (⟨position, numberToken text⟩ :: found) rest := by
  obtain ⟨sign, hsign, whole, fraction, exponent, hwhole, hfraction, hexponent, rfl⟩ := htext
  obtain ⟨c, w, part, rfl, hc, hw, hpart⟩ := hwhole.exists_run?
  obtain ⟨next, hnext, hpart⟩ := hfraction.exists_run? hpart
  obtain ⟨last, hlast, hmissing⟩ := hexponent.exists_run? hpart
  have hrun : part.run? (w ++ (fraction ++ exponent)) = some last := by
    rw [run?_append hw, run?_append hnext, hlast]
  obtain ⟨position', hread⟩ := exists_scanFrom_signed hsign hc hrun
  exact ⟨position', hread.trans (by rw [scanFrom_number hmissing h, List.reverse_reverse]; rfl)⟩

theorem exists_scanFrom_numeral {text : List Char} {l : Numeral} (hl : Numeral.parse? text = some l)
    (h : Ends rest) :
    ∃ position', scanFrom position .between found (text ++ rest) =
      scanFrom position' .between (⟨position, .number text l.value?⟩ :: found) rest := by
  rw [← numberValue?_of_parse? hl]
  exact exists_scanFrom_number (isNumber_of_parse? hl) h

theorem exists_scanFrom_atom (position : Nat) {text : List Char} {t : Token}
    (ht : atomToken? text = some t) (h : Ends rest) :
    ∃ position', scanFrom position .between found (text ++ rest) =
      scanFrom position' .between (⟨position, t⟩ :: found) rest := by
  cases hword : keyword? text with
  | some t' =>
    have htoken : t' = t := by
      unfold keyword? at hword
      unfold atomToken? at ht
      split_ifs at hword ht <;> exact Option.some.inj (hword.symm.trans ht)
    exact htoken ▸ exists_scanFrom_keyword hword h
  | none =>
    have hnumber : ∃ l n, Numeral.parse? text = some l ∧ l.value? = some n ∧
        t = .number text (some n) := by
      unfold keyword? at hword
      unfold atomToken? at ht
      split_ifs at hword ht
      split at ht
      · rename_i n hn
        obtain ⟨l, hl, hn⟩ := Option.bind_eq_some_iff.mp hn
        exact ⟨l, n, hl, hn, (Option.some.inj ht).symm⟩
      · cases ht
    obtain ⟨l, n, hl, hn, rfl⟩ := hnumber
    exact hn ▸ exists_scanFrom_numeral hl h

/-! ## Texts -/

theorem isBlank_of_isSpace {c : Char} (h : isSpace c = true) : Text.isBlank c = true := by
  simp only [isSpace, Bool.or_eq_true, beq_iff_eq] at h
  rcases h with ((rfl | rfl) | rfl) | rfl <;> rfl

theorem lexBetween_of_punctuation? {c : Char} {t : Token} (h : punctuation? c = some t) :
    lexBetween position found c = ⟨⟨position, t⟩ :: found, .ok .between⟩ := by
  have hc : Text.isBlank c = false := by
    unfold punctuation? at h
    split_ifs at h <;> subst_vars <;> decide
  simp [lexBetween, hc, h]

/-- Nothing is wrong in a text, and these tokens are found in it after others. -/
def Finds (s : Scan) (found : List Located) (ts : List Token) : Prop :=
  ∃ new, s.tokens = found.reverse ++ new ∧ new.map (·.token) = ts ∧ s.trouble = none

/-- A token that has been found is the first of the new ones. -/
theorem Finds.cons {s : Scan} {t : Token} {ts : List Token}
    (h : Finds s (⟨start, t⟩ :: found) ts) : Finds s found (t :: ts) := by
  obtain ⟨new, htokens, hnew, htrouble⟩ := h
  refine ⟨⟨start, t⟩ :: new, ?_, by rw [List.map_cons, hnew], htrouble⟩
  rw [htokens, List.reverse_cons, List.append_assoc, List.singleton_append]

theorem finds_scanFrom (position : Nat) (found : List Located) {s : List Char} {ts : List Token}
    (h : Spells s ts) : Finds (scanFrom position .between found s) found ts := by
  induction h generalizing position found with
  | nil => exact ⟨[], (List.append_nil _).symm, rfl, rfl⟩
  | space hc h ih =>
    rw [scanFrom, lexStep, lexBetween, if_pos (isBlank_of_isSpace hc)]
    exact ih _ _
  | punctuation hc h ih =>
    rw [scanFrom, lexStep, lexBetween_of_punctuation? hc]
    exact (ih _ _).cons
  | quoted text h ih =>
    obtain ⟨position', hread⟩ := exists_scanFrom_quote position text
    rw [hread]
    exact (ih _ _).cons
  | atom hne hsolid ht hs h ih =>
    obtain ⟨position', hread⟩ := exists_scanFrom_atom position ht (.of_breaks hs)
    rw [hread]
    exact (ih _ _).cons

/-- **The tokens that a text spells in JSON are found in it**, and nothing is wrong. -/
theorem tokens_scan_of_spells {s : List Char} {ts : List Token} (h : Spells s ts) :
    (scan s).tokens.map (·.token) = ts ∧ (scan s).trouble = none := by
  obtain ⟨new, htokens, hnew, htrouble⟩ := finds_scanFrom 0 [] h
  rw [List.reverse_nil, List.nil_append] at htokens
  rw [scan, htokens]
  exact ⟨hnew, htrouble⟩

end ErrorDocs.Json.Commented
