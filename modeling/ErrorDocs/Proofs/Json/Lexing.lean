import ErrorDocs.Json.Printer
import ErrorDocs.Proofs.Json.Tokens
import ErrorDocs.Proofs.Number.Natural

/-!
# Spelling tokens

A text spells tokens if it writes one after the other: punctuation as single characters, texts in
quotes, numbers and keywords up to the next separator, with blanks anywhere between. The character
machine finds the tokens that a text spells.

* `lexFrom_escapeChar`: a character is read back from the way it is written inside quotes.
* `Spells`, `Spells.append`: texts that spell tokens, put one after the other.
* **`Spells.tokens?_eq`**: the machine finds these tokens.
* **`Spells.parse?_eq`**: a text that spells the tokens of a value is read as the settled value.
-/

namespace ErrorDocs.Json

variable {found : List Token}

/-! ## Texts in quotes -/

theorem hexValue?_hexDigit : ∀ n < 16, Number.hexValue? (hexDigit n) = some n := by decide

/-- The digits of a control character are read as that character. -/
theorem lexFrom_code {n : Nat} (h : n < 0x20) (text rest : List Char) :
    lexFrom (.escape text) found
        ('u' :: '0' :: '0' :: hexDigit (n / 16) :: hexDigit (n % 16) :: rest) =
      lexFrom (.quoted (Char.ofNat n :: text)) found rest := by
  have hzero : Number.hexValue? '0' = some 0 := by decide
  have hhigh := hexValue?_hexDigit (n / 16) (by omega)
  have hlow := hexValue?_hexDigit (n % 16) (by omega)
  have hvalue : n / 16 * 16 + n % 16 = n := by omega
  have hfirst : isHighSurrogate n = false := by
    rw [isHighSurrogate, decide_eq_false (by omega), Bool.false_and]
  have hsecond : isLowSurrogate n = false := by
    rw [isLowSurrogate, decide_eq_false (by omega), Bool.false_and]
  simp [lexFrom, lexStep, hzero, hhigh, hlow, hvalue, lexCode, hfirst, hsecond]

theorem lexFrom_escapeChar (c : Char) (text rest : List Char) :
    lexFrom (.quoted text) found (escapeChar c ++ rest) =
      lexFrom (.quoted (c :: text)) found rest := by
  unfold escapeChar
  split_ifs with hquote hslash hback htab hline hform hreturn hcontrol
  · subst hquote; rfl
  · subst hslash; rfl
  · subst hback; rfl
  · subst htab; rfl
  · subst hline; rfl
  · subst hform; rfl
  · subst hreturn; rfl
  · have hcode := @lexFrom_code found c.toNat hcontrol text rest
    rw [Char.ofNat_toNat] at hcode
    exact hcode
  · simp [lexFrom, lexStep, hquote, hslash, hcontrol]

theorem lexFrom_escaped (s text rest : List Char) :
    lexFrom (.quoted text) found (s.flatMap escapeChar ++ rest) =
      lexFrom (.quoted (s.reverse ++ text)) found rest := by
  induction s generalizing text with
  | nil => rfl
  | cons c s ih =>
    rw [List.flatMap_cons, List.append_assoc, lexFrom_escapeChar, ih, List.reverse_cons,
      List.append_assoc, List.singleton_append]

theorem lexFrom_quote (s rest : List Char) :
    lexFrom .between found (quote s ++ rest) = lexFrom .between (.string s :: found) rest := by
  have hstart : lexFrom .between found (quote s ++ rest) =
      lexFrom (.quoted []) found (s.flatMap escapeChar ++ '"' :: rest) := by
    rw [quote, List.cons_append, List.append_assoc]
    rfl
  rw [hstart, lexFrom_escaped, List.append_nil]
  simp [lexFrom, lexStep]

/-! ## Numbers and keywords -/

/-- Characters at which a number or a keyword ends. -/
def isSeparator (c : Char) : Bool :=
  isSpace c || c == '"' || (punctuation? c).isSome

/-- Texts before which a number or a keyword ends. -/
def Breaks (s : List Char) : Prop :=
  ∀ c ∈ s.head?, isSeparator c = true

theorem breaks_nil : Breaks [] := fun _ hc => nomatch hc

theorem breaks_cons {c : Char} (h : isSeparator c = true) (s : List Char) : Breaks (c :: s) := by
  rintro _ ⟨⟩
  exact h

theorem Breaks.append {s t : List Char} (hs : Breaks s) (ht : Breaks t) : Breaks (s ++ t) := by
  cases s with
  | nil => exact ht
  | cons c s => exact hs

theorem lexFrom_atom {text : List Char} (h : ∀ c ∈ text, isSeparator c = false)
    (start rest : List Char) :
    lexFrom (.atom start) found (text ++ rest) =
      lexFrom (.atom (text.reverse ++ start)) found rest := by
  induction text generalizing start with
  | nil => rfl
  | cons c text ih =>
    rw [List.forall_mem_cons] at h
    have hstep : lexStep (.atom start) found c = some (.atom (c :: start), found) :=
      if_neg (Bool.eq_false_iff.mp h.1)
    rw [List.cons_append, lexFrom, hstep, List.reverse_cons, List.append_assoc,
      List.singleton_append]
    exact ih h.2 (c :: start)

theorem lexFrom_breaks {text rest : List Char} {t : Token}
    (ht : atomToken? text.reverse = some t) (h : Breaks rest) :
    lexFrom (.atom text) found rest = lexFrom .between (t :: found) rest := by
  cases rest with
  | nil => simp [lexFrom, ht]
  | cons c rest =>
    have hstep : lexStep (.atom text) found c =
        (atomToken? text.reverse).bind fun t => lexBetween (t :: found) c :=
      if_pos (h c rfl)
    rw [lexFrom, hstep, ht]
    rfl

theorem lexBetween_of_not_separator {c : Char} (h : isSeparator c = false) :
    lexBetween found c = some (.atom [c], found) := by
  simp only [isSeparator, Bool.or_eq_false_iff, beq_eq_false_iff_ne, Option.isSome_eq_false_iff,
    Option.isNone_iff_eq_none] at h
  simp [lexBetween, h]

theorem lexBetween_of_punctuation? {c : Char} {t : Token} (h : punctuation? c = some t) :
    lexBetween found c = some (.between, t :: found) := by
  have hc : isSpace c = false ∧ c ≠ '"' := by
    unfold punctuation? at h
    split_ifs at h <;> subst_vars <;> decide
  simp [lexBetween, hc, h]

/-! ## Spelling -/

/-- Texts that write tokens one after the other, with blanks anywhere between them. -/
inductive Spells : List Char → List Token → Prop where
  | nil : Spells [] []
  | space {c : Char} {s : List Char} {ts : List Token} (hc : isSpace c = true)
      (h : Spells s ts) : Spells (c :: s) ts
  | punctuation {c : Char} {t : Token} {s : List Char} {ts : List Token}
      (hc : punctuation? c = some t) (h : Spells s ts) : Spells (c :: s) (t :: ts)
  | quoted {s : List Char} {ts : List Token} (text : List Char) (h : Spells s ts) :
      Spells (quote text ++ s) (.string text :: ts)
  | atom {text s : List Char} {t : Token} {ts : List Token} (hne : text ≠ [])
      (hsolid : ∀ c ∈ text, isSeparator c = false) (ht : atomToken? text = some t)
      (hs : Breaks s) (h : Spells s ts) : Spells (text ++ s) (t :: ts)

namespace Spells

variable {s s' : List Char} {ts ts' : List Token}

theorem of_atomToken? {text : List Char} {t : Token} (hne : text ≠ [])
    (hsolid : text.any isSeparator = false) (ht : atomToken? text = some t) :
    Spells text [t] := by
  have hchars : ∀ c ∈ text, isSeparator c = false := fun c hc =>
    Bool.eq_false_iff.mpr (List.any_eq_false.mp hsolid c hc)
  have h := Spells.atom hne hchars ht breaks_nil .nil
  rwa [List.append_nil] at h

theorem of_quote (text : List Char) : Spells (quote text) [.string text] := by
  have h := Spells.quoted text .nil
  rwa [List.append_nil] at h

theorem append (h : Spells s ts) (h' : Spells s' ts') (hs' : Breaks s') :
    Spells (s ++ s') (ts ++ ts') := by
  induction h with
  | nil => exact h'
  | space hc h ih => exact .space hc ih
  | punctuation hc h ih => exact .punctuation hc ih
  | quoted text h ih =>
    rw [List.append_assoc]
    exact .quoted text ih
  | atom hne hsolid ht hs h ih =>
    rw [List.append_assoc]
    exact .atom hne hsolid ht (hs.append hs') ih

theorem lexFrom_eq (h : Spells s ts) (found : List Token) :
    lexFrom .between found s = some (found.reverse ++ ts) := by
  have hcons (t : Token) (found ts : List Token) :
      (t :: found).reverse ++ ts = found.reverse ++ t :: ts := by
    rw [List.reverse_cons, List.append_assoc, List.singleton_append]
  induction h generalizing found with
  | nil => rw [lexFrom, List.append_nil]
  | space hc h ih =>
    rw [lexFrom, lexStep, lexBetween, if_pos hc]
    exact ih found
  | @punctuation c t s ts hc h ih =>
    rw [lexFrom, lexStep, lexBetween_of_punctuation? hc, ← hcons]
    exact ih (t :: found)
  | quoted text h ih => rw [lexFrom_quote, ih, hcons]
  | @atom text s t ts hne hsolid ht hs h ih =>
    obtain ⟨c, text, rfl⟩ := List.exists_cons_of_ne_nil hne
    rw [List.forall_mem_cons] at hsolid
    have hstart :
        lexFrom .between found (c :: text ++ s) = lexFrom (.atom [c]) found (text ++ s) := by
      rw [List.cons_append, lexFrom, lexStep, lexBetween_of_not_separator hsolid.1]
    have hread : atomToken? (text.reverse ++ [c]).reverse = some t := by
      rw [List.reverse_append, List.reverse_reverse]
      exact ht
    rw [hstart, lexFrom_atom hsolid.2, lexFrom_breaks hread hs, ih, hcons]

/-- **The machine finds the tokens that a text spells.** -/
theorem tokens?_eq (h : Spells s ts) : tokens? s = some ts :=
  h.lexFrom_eq []

/-- **A text that spells the tokens of a value is read as the settled value.** -/
theorem parse?_eq {v : Json} (h : Spells s (tokens v)) : parse? s = some v.settled := by
  rw [parse?, h.tokens?_eq, Option.bind_some, build?_tokens]

end Spells

end ErrorDocs.Json
